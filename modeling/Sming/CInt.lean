import Mathlib.Tactic.DeriveFintype
import Mathlib.Tactic.Positivity

/-!
# Sming.CInt

The C++ integer arithmetic that `DateTime.h` and `WString.h` rely on.

A C++ integer type is named by `IntType`. Its width depends on the target: `char`, `short`, `int`
and `long long` have 8, 16, 32 and 64 bits on every Sming target, `long` has 32 or 64, and
`time_t` names a signed type of at least `int`'s rank (`Abi`). A value is an `Int` in its
type's range.

* `IntType.convert`: integral conversion, modulo `2 ^ bits` (C++20's rule for a signed
  destination, and GCC's for the earlier standards).
* `IntType.common`: the usual arithmetic conversions after integral promotion.
* `binop`: `+`, `*`, `/` and `%` on two values. Both operands are converted to the common type;
  an unsigned result wraps, while a signed result out of range and a zero divisor are
  undefined behaviour (`none`).

`binop_of_inRange` evaluates `binop` whenever the exact result on the converted operands fits
the common type; the helpers of `DateTime.h` are evaluated through it.
-/

namespace Sming

/-- The integer types of the modelled code (`uint8_t` is `uchar`, `int16_t` is `short`,
`uint16_t` is `ushort`, `unsigned` is `uint`). -/
inductive IntType where
  | uchar | short | ushort | int | uint | long | ulong | llong | ullong
  deriving DecidableEq, Repr, Fintype

/-- The value congruent to `v` modulo `2 ^ w` in `[-2 ^ (w - 1), 2 ^ (w - 1))`. -/
def toSigned (w : Nat) (v : Int) : Int := (v + 2 ^ (w - 1)) % 2 ^ w - 2 ^ (w - 1)

/-- The value congruent to `v` modulo `2 ^ w` in `[0, 2 ^ w)`. -/
def toUnsigned (w : Nat) (v : Int) : Int := v % 2 ^ w

namespace IntType

/-- Width in bits on a target where `long` has `n` bits. -/
def bits (n : Nat) : IntType → Nat
  | uchar => 8
  | short | ushort => 16
  | int | uint => 32
  | long | ulong => n
  | llong | ullong => 64

def signed : IntType → Bool
  | short | int | long | llong => true
  | uchar | ushort | uint | ulong | ullong => false

/-- Integer conversion rank. -/
def rank : IntType → Nat
  | uchar => 1
  | short | ushort => 2
  | int | uint => 3
  | long | ulong => 4
  | llong | ullong => 5

/-- The unsigned type of a signed type's rank. -/
def toUnsignedType : IntType → IntType
  | short => ushort
  | int => uint
  | long => ulong
  | llong => ullong
  | t => t

/-- Integral promotion: the types of lower rank than `int` become `int`, which holds all
their values. -/
def promote : IntType → IntType
  | uchar | short | ushort => int
  | t => t

def min (n : Nat) (t : IntType) : Int := if t.signed then -2 ^ (t.bits n - 1) else 0

def max (n : Nat) (t : IntType) : Int :=
  if t.signed then 2 ^ (t.bits n - 1) - 1 else 2 ^ t.bits n - 1

/-- Integral conversion of `v` to `t`. -/
def convert (n : Nat) (t : IntType) (v : Int) : Int :=
  if t.signed then toSigned (t.bits n) v else toUnsigned (t.bits n) v

/-- The usual arithmetic conversions: the type both operands of `s ∘ t` are converted to. An
unsigned operand of the signed one's rank or higher wins; otherwise the signed type wins if it
holds every value of the unsigned one, and else both go to its unsigned counterpart. -/
def common (n : Nat) (s t : IntType) : IntType :=
  let s := s.promote
  let t := t.promote
  if s.signed = t.signed then (if t.rank ≤ s.rank then s else t)
  else
    let sg := if s.signed then s else t
    let us := if s.signed then t else s
    if sg.rank ≤ us.rank then us
    else if us.bits n < sg.bits n then sg
    else sg.toUnsignedType

end IntType

/-- A target's integer model: the width of `long` and the type `time_t` names. -/
structure Abi where
  longBits : Nat
  timeT : IntType
  longBits_eq : longBits = 32 ∨ longBits = 64
  timeT_mem : timeT = .int ∨ timeT = .long ∨ timeT = .llong

namespace Abi

variable (A : Abi)

def bits (t : IntType) : Nat := t.bits A.longBits
def min (t : IntType) : Int := t.min A.longBits
def max (t : IntType) : Int := t.max A.longBits
def convert (t : IntType) (v : Int) : Int := t.convert A.longBits v
def common (s t : IntType) : IntType := IntType.common A.longBits s t

def InRange (t : IntType) (v : Int) : Prop := A.min t ≤ v ∧ v ≤ A.max t

instance (t : IntType) (v : Int) : Decidable (A.InRange t v) :=
  inferInstanceAs (Decidable (_ ∧ _))

end Abi

/-- A value of a C++ integer type. -/
structure CVal where
  ty : IntType
  val : Int
  deriving DecidableEq, Repr

inductive BinOp where
  | add | mul | div | rem
  deriving DecidableEq, Repr

namespace BinOp

/-- The operation on converted operands: `/` and `%` truncate toward zero. -/
def eval : BinOp → Int → Int → Int
  | add => (· + ·)
  | mul => (· * ·)
  | div => Int.tdiv
  | rem => Int.tmod

/-- `/` and `%` are undefined for a zero divisor. -/
def divides : BinOp → Bool
  | div | rem => true
  | add | mul => false

end BinOp

/-- `x op y`: both operands converted to the common type, the result wrapped if that type is
unsigned, and `none` for undefined behaviour. -/
def binop (A : Abi) (op : BinOp) (x y : CVal) : Option CVal :=
  let t := A.common x.ty y.ty
  let a := A.convert t x.val
  let b := A.convert t y.val
  if op.divides ∧ b = 0 then none
  else if t.signed then (if A.InRange t (op.eval a b) then some ⟨t, op.eval a b⟩ else none)
  else some ⟨t, A.convert t (op.eval a b)⟩

namespace Abi

/-- A 64-bit Linux host: `long` has 64 bits and `time_t` is `long`. -/
def lp64 : Abi := ⟨64, .long, .inr rfl, .inr (.inl rfl)⟩

/-- The ESP8266 and the other 32-bit targets with a 64-bit `time_t`: `long` has 32 bits and
`time_t` is `long long`. -/
def ilp32 : Abi := ⟨32, .llong, .inl rfl, .inr (.inr rfl)⟩

/-- A fact that depends only on `long`'s width and on `time_t`'s type holds on every target
once it holds on the six combinations. -/
theorem forall_of {P : Nat → IntType → Prop}
    (h : ∀ n ∈ [32, 64], ∀ t ∈ [IntType.int, .long, .llong], P n t) (A : Abi) :
    P A.longBits A.timeT := by
  apply h
  · rcases A.longBits_eq with h | h <;> simp [h]
  · rcases A.timeT_mem with h | h | h <;> simp [h]

variable (A : Abi)

theorem bits_pos (t : IntType) : 0 < A.bits t := by
  rcases A.longBits_eq with h | h <;> cases t <;> simp [bits, IntType.bits, h]

/-- `2 ^ bits` is twice the signed half-range, and both are positive. -/
theorem two_pow_bits (t : IntType) :
    (2 : Int) ^ t.bits A.longBits = 2 * 2 ^ (t.bits A.longBits - 1) ∧
      (0 : Int) < 2 ^ (t.bits A.longBits - 1) := by
  refine ⟨?_, by positivity⟩
  rw [← pow_succ']; congr 1; have := A.bits_pos t; unfold bits at this; omega

/-- Every type holds `0`. -/
theorem min_nonpos (t : IntType) : A.min t ≤ 0 ∧ 0 ≤ A.max t := by
  obtain ⟨hp, hpos⟩ := A.two_pow_bits t
  unfold min max IntType.min IntType.max
  cases t.signed <;> simp only [if_true, if_false, Bool.false_eq_true] <;> omega

variable {A}

theorem convert_of_inRange {t : IntType} {v : Int} (h : A.InRange t v) : A.convert t v = v := by
  obtain ⟨hlo, hhi⟩ := h
  obtain ⟨hp, hpos⟩ := A.two_pow_bits t
  unfold convert IntType.convert toSigned toUnsigned
  unfold min max IntType.min IntType.max at *
  cases hs : t.signed <;> simp only [hs, if_true, if_false, Bool.false_eq_true] at * <;>
    rw [Int.emod_eq_of_lt] <;> omega

/-- A non-negative value up to `t`'s maximum keeps its value in `t`. -/
theorem convert_of_le {t : IntType} {v : Int} (h0 : 0 ≤ v) (h1 : v ≤ A.max t) :
    A.convert t v = v :=
  convert_of_inRange ⟨(A.min_nonpos t).1.trans h0, h1⟩

@[simp] theorem convert_zero (t : IntType) : A.convert t 0 = 0 :=
  convert_of_inRange (A.min_nonpos t)

/-- A non-negative value below `2 ^ bits` keeps its value in an unsigned type. -/
theorem convert_unsigned {t : IntType} (hs : t.signed = false) {v : Int} (h0 : 0 ≤ v)
    (h1 : v < 2 ^ A.bits t) : A.convert t v = v :=
  convert_of_le h0 (by unfold max IntType.max bits at *; rw [hs, if_neg Bool.false_ne_true]; omega)

/-- Conversion to `t` sees `v` only modulo `2 ^ bits`. -/
theorem convert_add_mul (t : IntType) (u k : Int) :
    A.convert t (u + 2 ^ A.bits t * k) = A.convert t u := by
  unfold convert IntType.convert toSigned toUnsigned bits
  split
  · rw [add_right_comm, Int.add_mul_emod_self_left]
  · rw [Int.add_mul_emod_self_left]

/-- `v` converts to the value of `t` congruent to it modulo `2 ^ bits`. -/
theorem convert_eq_of_dvd {t : IntType} {u v : Int} (hu : A.InRange t u)
    (h : (2 : Int) ^ A.bits t ∣ v - u) : A.convert t v = u := by
  obtain ⟨k, hk⟩ := h
  rw [show v = u + 2 ^ A.bits t * k by rw [← hk]; omega, convert_add_mul, convert_of_inRange hu]

/-- A converted value is congruent to the original modulo `2 ^ bits`. -/
theorem dvd_convert_sub (t : IntType) (v : Int) : (2 : Int) ^ A.bits t ∣ A.convert t v - v := by
  unfold convert IntType.convert toSigned toUnsigned bits
  generalize (2 : Int) ^ (t.bits A.longBits - 1) = H
  split
  · rw [show (v + H) % 2 ^ t.bits A.longBits - H - v =
      -(v + H - (v + H) % 2 ^ t.bits A.longBits) by omega]
    exact Int.dvd_neg.2 (Int.dvd_sub_of_emod_eq rfl)
  · rw [show v % 2 ^ t.bits A.longBits - v = -(v - v % 2 ^ t.bits A.longBits) by omega]
    exact Int.dvd_neg.2 (Int.dvd_sub_of_emod_eq rfl)

theorem convert_inRange (t : IntType) (v : Int) : A.InRange t (A.convert t v) := by
  obtain ⟨hp, hpos⟩ := A.two_pow_bits t
  have hne : (2 : Int) ^ t.bits A.longBits ≠ 0 := by omega
  unfold InRange convert IntType.convert toSigned toUnsigned min max IntType.min IntType.max
  cases t.signed <;> simp only [if_true, if_false, Bool.false_eq_true]
  · have := Int.emod_nonneg v hne
    have := Int.emod_lt_of_pos v (by omega : (0 : Int) < 2 ^ t.bits A.longBits)
    omega
  · have := Int.emod_nonneg (v + 2 ^ (t.bits A.longBits - 1)) hne
    have := Int.emod_lt_of_pos (v + 2 ^ (t.bits A.longBits - 1))
      (by omega : (0 : Int) < 2 ^ t.bits A.longBits)
    omega

/-- A value between `0` and a value of `t` is a value of `t`. -/
theorem inRange_of_between {t : IntType} {u v : Int} (h : A.InRange t u)
    (hv : (0 ≤ v ∧ v ≤ u) ∨ (u ≤ v ∧ v ≤ 0)) : A.InRange t v := by
  have := A.min_nonpos t
  unfold InRange at *
  omega

end Abi

/-- `/` truncates toward zero: floor division of `|a|`, with `a`'s sign. -/
theorem tdiv_of_pos (a : Int) {k : Int} (hk : 0 < k) :
    a.tdiv k = if 0 ≤ a then a / k else -((-a) / k) := by
  split
  · exact Int.tdiv_eq_ediv ‹_› hk.le
  · have h := Int.neg_tdiv (-a) k
    rw [Int.neg_neg] at h
    rw [h, Int.tdiv_eq_ediv (by omega) hk.le]

theorem tdiv_between (a : Int) {k : Int} (hk : 0 < k) :
    (0 ≤ a.tdiv k ∧ a.tdiv k ≤ a) ∨ (a ≤ a.tdiv k ∧ a.tdiv k ≤ 0) := by
  rw [tdiv_of_pos a hk]
  split
  · exact .inl ⟨Int.ediv_nonneg ‹_› hk.le, Int.ediv_le_self k ‹_›⟩
  · have := Int.ediv_nonneg (by omega : 0 ≤ -a) hk.le
    have := Int.ediv_le_self k (by omega : 0 ≤ -a)
    omega

theorem tmod_between (a : Int) {k : Int} (hk : 0 < k) :
    (0 ≤ a.tmod k ∧ a.tmod k ≤ a) ∨ (a ≤ a.tmod k ∧ a.tmod k ≤ 0) := by
  rw [Int.tmod_def, tdiv_of_pos a hk]
  split
  · have := Int.emod_add_ediv a k
    have := Int.emod_nonneg a hk.ne'
    have := Int.mul_nonneg hk.le (Int.ediv_nonneg ‹0 ≤ a› hk.le)
    omega
  · rw [Int.mul_neg]
    have := Int.emod_add_ediv (-a) k
    have := Int.emod_nonneg (-a) hk.ne'
    have := Int.mul_nonneg hk.le (Int.ediv_nonneg (by omega : 0 ≤ -a) hk.le)
    omega

section Binop

variable {A : Abi} {op : BinOp} {x y : CVal} {t : IntType} {a b : Int}

/-- `binop` on operands converted to `a` and `b` in the common type `t`, when the exact result
fits `t`. -/
theorem binop_of_inRange (ht : A.common x.ty y.ty = t) (ha : A.convert t x.val = a)
    (hb : A.convert t y.val = b) (h0 : op.divides → b ≠ 0) (hr : A.InRange t (op.eval a b)) :
    binop A op x y = some ⟨t, op.eval a b⟩ := by
  subst ht ha hb
  have hd : ¬ (op.divides = true ∧ A.convert (A.common x.ty y.ty) y.val = 0) :=
    fun h => h0 h.1 h.2
  simp only [binop, hd, hr, Abi.convert_of_inRange hr, if_false, if_true, ite_self]

/-- `binop` on non-negative operands whose exact result `r` fits the common type `t`. -/
theorem binop_of_le {s u : IntType} {r : Int} (ht : A.common s u = t) (ha : 0 ≤ a)
    (ha' : a ≤ A.max t) (hb : 0 ≤ b) (hb' : b ≤ A.max t) (h0 : op.divides → b ≠ 0)
    (hr : op.eval a b = r) (hr0 : 0 ≤ r) (hr1 : r ≤ A.max t) :
    binop A op ⟨s, a⟩ ⟨u, b⟩ = some ⟨t, r⟩ := by
  subst hr
  exact binop_of_inRange ht (Abi.convert_of_le ha ha') (Abi.convert_of_le hb hb') h0
    ⟨(A.min_nonpos t).1.trans hr0, hr1⟩

/-- An unsigned common type wraps the exact result. -/
theorem binop_of_unsigned (ht : A.common x.ty y.ty = t) (hs : t.signed = false)
    (ha : A.convert t x.val = a) (hb : A.convert t y.val = b) (h0 : op.divides → b ≠ 0) :
    binop A op x y = some ⟨t, A.convert t (op.eval a b)⟩ := by
  subst ht ha hb
  have hd : ¬ (op.divides = true ∧ A.convert (A.common x.ty y.ty) y.val = 0) :=
    fun h => h0 h.1 h.2
  simp only [binop, hd, hs, if_false, Bool.false_eq_true]

/-- A signed result out of range is undefined. -/
theorem binop_eq_none (ht : A.common x.ty y.ty = t) (hs : t.signed = true)
    (ha : A.convert t x.val = a) (hb : A.convert t y.val = b)
    (hr : ¬ A.InRange t (op.eval a b)) : binop A op x y = none := by
  subst ht ha hb
  simp only [binop, hs, hr, if_true, if_false, ite_self]

end Binop

end Sming
