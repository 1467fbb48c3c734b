import Sming.CInt

/-!
# Sming.DateTime.Helpers

The constants and free helpers at the top of `DateTime.h`, in the C++ types they are written
in. The `SECS_PER_*` constants are `unsigned long` and `DAYS_PER_WEEK` is `long`; a helper takes
a `time_t` and returns `uint8_t`, `unsigned`, `time_t` or the enumeration `dtDays_t`.

Each helper applies `/` or `%` to `time` and an `unsigned long` constant, so `time` is first
converted to `Abi.timeArith`, the common type of `time_t` and `unsigned long`. That type is
unsigned unless `time_t` is a 64-bit `long long` over a 32-bit `long`. `TimeT.conv` is `time`
converted to it.

* `timeArith_*`: every later operation of the helpers stays in `timeArith`.
* `numberOfSeconds_eq`, ..., `dayOfWeek_eq`: each helper as a formula in `TimeT.conv`, for every
  `time_t` value, with `/` and `%` truncating as in C++.
-/

namespace Sming

/-- The type the helpers' arithmetic on `time` is done in: the common type of `time_t` and
`unsigned long`. -/
def Abi.timeArith (A : Abi) : IntType := A.common A.timeT .ulong

namespace DateTime

/-- `SECS_PER_MIN`: `60UL`. -/
def secsPerMin : CVal := ⟨.ulong, 60⟩

/-- `SECS_PER_HOUR`: `3600UL`. -/
def secsPerHour : CVal := ⟨.ulong, 3600⟩

/-- `SECS_PER_DAY`: the macro body `(SECS_PER_HOUR * 24L)`. -/
def secsPerDay (A : Abi) : Option CVal := binop A .mul secsPerHour ⟨.long, 24⟩

/-- `DAYS_PER_WEEK`: `7L`. -/
def daysPerWeek : CVal := ⟨.long, 7⟩

/-- `dtDays_t`, with enumerators `dtSunday` = 0 to `dtSaturday` = 6. With no fixed underlying
type, its values are those of the smallest bit-field that holds the enumerators: `0` to `7`. -/
structure DtDays where
  val : Fin 8
  deriving DecidableEq, Repr

namespace DtDays

def dtSunday : DtDays := ⟨0⟩
def dtMonday : DtDays := ⟨1⟩
def dtTuesday : DtDays := ⟨2⟩
def dtWednesday : DtDays := ⟨3⟩
def dtThursday : DtDays := ⟨4⟩
def dtFriday : DtDays := ⟨5⟩
def dtSaturday : DtDays := ⟨6⟩

/-- The cast `dtDays_t(v)`: undefined behaviour outside the enumeration's values. -/
def ofInt (v : Int) : Option DtDays :=
  if h : 0 ≤ v ∧ v < 8 then some ⟨⟨v.toNat, by omega⟩⟩ else none

/-- Integral promotion of the enumeration: to `int`, which holds all its values. -/
def promote (d : DtDays) : CVal := ⟨.int, d.val.val⟩

end DtDays

/-- A value of `time_t`. -/
structure TimeT (A : Abi) where
  val : Int
  inRange : A.InRange A.timeT val

variable {A : Abi}

def TimeT.cval (t : TimeT A) : CVal := ⟨A.timeT, t.val⟩

/-- `numberOfSeconds`: `time % SECS_PER_MIN` as `uint8_t`. -/
def numberOfSeconds (time : TimeT A) : Option Int := do
  let r ← binop A .rem time.cval secsPerMin
  pure (A.convert .uchar r.val)

/-- `numberOfMinutes`: `(time / SECS_PER_MIN) % SECS_PER_MIN` as `uint8_t`. -/
def numberOfMinutes (time : TimeT A) : Option Int := do
  let q ← binop A .div time.cval secsPerMin
  let r ← binop A .rem q secsPerMin
  pure (A.convert .uchar r.val)

/-- `numberOfHours`: `(time % SECS_PER_DAY) / SECS_PER_HOUR` as `uint8_t`. -/
def numberOfHours (time : TimeT A) : Option Int := do
  let d ← secsPerDay A
  let r ← binop A .rem time.cval d
  let h ← binop A .div r secsPerHour
  pure (A.convert .uchar h.val)

/-- `dayOfWeek`: `dtDays_t((time / SECS_PER_DAY + 4) % DAYS_PER_WEEK)`. -/
def dayOfWeek (time : TimeT A) : Option DtDays := do
  let d ← secsPerDay A
  let q ← binop A .div time.cval d
  let s ← binop A .add q ⟨.int, 4⟩
  let r ← binop A .rem s daysPerWeek
  DtDays.ofInt r.val

/-- `elapsedDays`: `time / SECS_PER_DAY` as `uint8_t`. -/
def elapsedDays (time : TimeT A) : Option Int := do
  let d ← secsPerDay A
  let q ← binop A .div time.cval d
  pure (A.convert .uchar q.val)

/-- `elapsedSecsToday`: `time % SECS_PER_DAY` as `unsigned`. -/
def elapsedSecsToday (time : TimeT A) : Option Int := do
  let d ← secsPerDay A
  let r ← binop A .rem time.cval d
  pure (A.convert .uint r.val)

/-- `previousMidnight`: `(time / SECS_PER_DAY) * SECS_PER_DAY` as `time_t`. -/
def previousMidnight (time : TimeT A) : Option Int := do
  let d ← secsPerDay A
  let q ← binop A .div time.cval d
  let m ← binop A .mul q d
  pure (A.convert A.timeT m.val)

/-- `nextMidnight`: `previousMidnight(time) + SECS_PER_DAY` as `time_t`. -/
def nextMidnight (time : TimeT A) : Option Int := do
  let pm ← previousMidnight time
  let d ← secsPerDay A
  let r ← binop A .add ⟨A.timeT, pm⟩ d
  pure (A.convert A.timeT r.val)

/-- `elapsedSecsThisWeek`: `elapsedSecsToday(time) + dayOfWeek(time) * SECS_PER_DAY` as
`unsigned`. -/
def elapsedSecsThisWeek (time : TimeT A) : Option Int := do
  let today ← elapsedSecsToday time
  let dow ← dayOfWeek time
  let d ← secsPerDay A
  let w ← binop A .mul dow.promote d
  let r ← binop A .add ⟨.uint, today⟩ w
  pure (A.convert .uint r.val)

/-- `time` converted to `timeArith`. -/
def TimeT.conv (t : TimeT A) : Int := A.convert A.timeArith t.val

/-! ### The type of the arithmetic -/

section TimeArith

variable (A)

/-- `timeArith` absorbs `int`, `long` and `unsigned long` in the usual arithmetic conversions. -/
theorem timeArith_common {u : IntType} (hu : u = .int ∨ u = .long ∨ u = .ulong) :
    A.common A.timeArith u = A.timeArith :=
  Abi.forall_of (P := fun n t => IntType.common n (IntType.common n t .ulong) u =
    IntType.common n t .ulong) (by rcases hu with rfl | rfl | rfl <;> decide) A

/-- `int` and `unsigned` operands meet `unsigned long` in `unsigned long`. -/
theorem common_ulong {u : IntType} (hu : u = .int ∨ u = .uint) : A.common u .ulong = .ulong :=
  Abi.forall_of (P := fun n _ => IntType.common n u .ulong = .ulong)
    (by rcases hu with rfl | rfl <;> decide) A

/-- A signed `timeArith` is `time_t` itself. -/
theorem timeArith_of_signed (h : A.timeArith.signed = true) : A.timeArith = A.timeT :=
  Abi.forall_of (P := fun n t => (IntType.common n t .ulong).signed = true →
    IntType.common n t .ulong = t) (by decide) A h

/-- `timeArith` holds `int`'s non-negative values, and either no negative value or all of
`int`'s. -/
theorem timeArith_bounds :
    2 ^ 31 - 1 ≤ A.max A.timeArith ∧
      (A.min A.timeArith = 0 ∨ A.min A.timeArith ≤ -2 ^ 31) :=
  Abi.forall_of (P := fun n t => 2 ^ 31 - 1 ≤ IntType.max n (IntType.common n t .ulong) ∧
    (IntType.min n (IntType.common n t .ulong) = 0 ∨
      IntType.min n (IntType.common n t .ulong) ≤ -2 ^ 31)) (by decide) A

/-- `time_t`'s non-negative values keep their value in `timeArith`. -/
theorem timeT_max_le : A.max A.timeT ≤ A.max A.timeArith :=
  Abi.forall_of (P := fun n t => IntType.max n t ≤ IntType.max n (IntType.common n t .ulong))
    (by decide) A

/-- `time_t` is at most as wide as `timeArith`. -/
theorem timeT_bits_le : A.bits A.timeT ≤ A.bits A.timeArith :=
  Abi.forall_of (P := fun n t => t.bits n ≤ (IntType.common n t .ulong).bits n) (by decide) A

theorem ulong_bounds : A.min .ulong = 0 ∧ 2 ^ 32 - 1 ≤ A.max .ulong := by
  rcases A.longBits_eq with h | h <;> simp [Abi.min, Abi.max, IntType.min, IntType.max,
    IntType.bits, IntType.signed, h]

theorem secsPerDay_eq : secsPerDay A = some ⟨.ulong, 86400⟩ := by
  have hr : ∀ v : Int, 0 ≤ v → v ≤ 86400 → A.InRange .ulong v := fun v h0 h1 => by
    have := ulong_bounds A; unfold Abi.InRange; omega
  have hc : A.common IntType.ulong IntType.long = .ulong :=
    Abi.forall_of (P := fun n _ => IntType.common n .ulong .long = .ulong) (by decide) A
  exact binop_of_inRange hc (Abi.convert_of_inRange (hr 3600 (by decide) (by decide)))
    (Abi.convert_of_inRange (hr 24 (by decide) (by decide))) (by decide)
    (hr 86400 (by decide) (by decide))

end TimeArith

/-! ### Each helper as a formula in `TimeT.conv` -/

section Formulas

theorem TimeT.conv_inRange (t : TimeT A) : A.InRange A.timeArith t.conv :=
  Abi.convert_inRange _ _

/-- A constant that `int` holds keeps its value in `timeArith`. -/
theorem convert_timeArith_const {c : Int} (h0 : 0 ≤ c) (h1 : c ≤ 2 ^ 31 - 1) :
    A.convert A.timeArith c = c := by
  have := timeArith_bounds A
  have := A.min_nonpos A.timeArith
  exact Abi.convert_of_inRange (by unfold Abi.InRange; omega)

/-- `x / c` or `x % c` in `timeArith`, for a positive constant `c` that `int` holds. -/
theorem binop_divRem {op : BinOp} {x y : CVal} {v c : Int} (hop : op = .div ∨ op = .rem)
    (ht : A.common x.ty y.ty = A.timeArith) (hx : A.convert A.timeArith x.val = v)
    (hy : y.val = c) (hc : 0 < c) (hc' : c ≤ 2 ^ 31 - 1) (hv : A.InRange A.timeArith v) :
    binop A op x y = some ⟨A.timeArith, op.eval v c⟩ := by
  refine binop_of_inRange ht hx (by rw [hy]; exact convert_timeArith_const hc.le hc')
    (fun _ => hc.ne') (Abi.inRange_of_between hv ?_)
  rcases hop with rfl | rfl
  exacts [tdiv_between v hc, tmod_between v hc]

/-- `time / c` or `time % c`, for an `unsigned long` constant `c`. -/
theorem binop_time {op : BinOp} (hop : op = .div ∨ op = .rem) (t : TimeT A) (c : Int)
    (hc : 0 < c) (hc' : c ≤ 2 ^ 31 - 1) :
    binop A op t.cval ⟨.ulong, c⟩ = some ⟨A.timeArith, op.eval t.conv c⟩ :=
  binop_divRem hop rfl rfl rfl hc hc' t.conv_inRange

/-- `v / c` or `v % c`, for a value `v` of `timeArith` and an `unsigned long` constant `c`. -/
theorem binop_arith {op : BinOp} (hop : op = .div ∨ op = .rem) {v : Int}
    (hv : A.InRange A.timeArith v) (c : Int) (hc : 0 < c) (hc' : c ≤ 2 ^ 31 - 1) :
    binop A op ⟨A.timeArith, v⟩ ⟨.ulong, c⟩ = some ⟨A.timeArith, op.eval v c⟩ :=
  binop_divRem hop (timeArith_common A (.inr (.inr rfl))) (Abi.convert_of_inRange hv) rfl hc hc' hv

theorem inRange_tdiv {v : Int} (hv : A.InRange A.timeArith v) {k : Int} (hk : 0 < k) :
    A.InRange A.timeArith (v.tdiv k) :=
  Abi.inRange_of_between hv (tdiv_between v hk)

theorem inRange_tmod {v : Int} (hv : A.InRange A.timeArith v) {k : Int} (hk : 0 < k) :
    A.InRange A.timeArith (v.tmod k) :=
  Abi.inRange_of_between hv (tmod_between v hk)

theorem numberOfSeconds_eq (t : TimeT A) :
    numberOfSeconds t = some (A.convert .uchar (t.conv.tmod 60)) := by
  simp [numberOfSeconds, secsPerMin, BinOp.eval,
    binop_time (.inr rfl) t 60 (by decide) (by decide)]

theorem numberOfMinutes_eq (t : TimeT A) :
    numberOfMinutes t = some (A.convert .uchar ((t.conv.tdiv 60).tmod 60)) := by
  have hq := inRange_tdiv t.conv_inRange (by decide : (0 : Int) < 60)
  simp [numberOfMinutes, secsPerMin, BinOp.eval,
    binop_time (.inl rfl) t 60 (by decide) (by decide),
    binop_arith (.inr rfl) hq 60 (by decide) (by decide)]

theorem numberOfHours_eq (t : TimeT A) :
    numberOfHours t = some (A.convert .uchar ((t.conv.tmod 86400).tdiv 3600)) := by
  have hr := inRange_tmod t.conv_inRange (by decide : (0 : Int) < 86400)
  simp [numberOfHours, secsPerDay_eq, secsPerHour, BinOp.eval,
    binop_time (.inr rfl) t 86400 (by decide) (by decide),
    binop_arith (.inl rfl) hr 3600 (by decide) (by decide)]

theorem elapsedDays_eq (t : TimeT A) :
    elapsedDays t = some (A.convert .uchar (t.conv.tdiv 86400)) := by
  simp [elapsedDays, secsPerDay_eq, BinOp.eval,
    binop_time (.inl rfl) t 86400 (by decide) (by decide)]

theorem elapsedSecsToday_eq (t : TimeT A) :
    elapsedSecsToday t = some (A.convert .uint (t.conv.tmod 86400)) := by
  simp [elapsedSecsToday, secsPerDay_eq, BinOp.eval,
    binop_time (.inr rfl) t 86400 (by decide) (by decide)]

/-- `(time / SECS_PER_DAY) * SECS_PER_DAY` lies between `0` and `time` in `timeArith`. -/
theorem inRange_midnight (t : TimeT A) : A.InRange A.timeArith (t.conv.tdiv 86400 * 86400) := by
  refine Abi.inRange_of_between t.conv_inRange ?_
  rw [tdiv_of_pos _ (by decide)]
  split <;> omega

theorem previousMidnight_eq (t : TimeT A) :
    previousMidnight t = some (A.convert A.timeT (t.conv.tdiv 86400 * 86400)) := by
  have hq := binop_time (.inl rfl) t 86400 (by decide) (by decide)
  have hqr := inRange_tdiv t.conv_inRange (by decide : (0 : Int) < 86400)
  have hm : binop A .mul ⟨A.timeArith, t.conv.tdiv 86400⟩ ⟨.ulong, 86400⟩ =
      some ⟨A.timeArith, t.conv.tdiv 86400 * 86400⟩ :=
    binop_of_inRange (timeArith_common A (.inr (.inr rfl))) (Abi.convert_of_inRange hqr)
      (convert_timeArith_const (by decide) (by decide)) (by decide) (inRange_midnight t)
  simp [previousMidnight, secsPerDay_eq, BinOp.eval, hq, hm]

/-- `nextMidnight` from the value of `previousMidnight`. -/
theorem nextMidnight_of_previousMidnight {t : TimeT A} {pm : Int}
    (h : previousMidnight t = some pm) : nextMidnight t =
      (binop A .add ⟨A.timeT, pm⟩ ⟨.ulong, 86400⟩).map fun r =>
        A.convert A.timeT r.val := by
  simp only [nextMidnight, h, secsPerDay_eq, Option.bind_eq_bind, Option.some_bind,
    Option.pure_def, Option.map_eq_bind, Function.comp_def]

theorem dayOfWeek_eq (t : TimeT A) :
    dayOfWeek t = DtDays.ofInt ((t.conv.tdiv 86400 + 4).tmod 7) := by
  have hq := binop_time (.inl rfl) t 86400 (by decide) (by decide)
  have hqr := inRange_tdiv t.conv_inRange (by decide : (0 : Int) < 86400)
  have hsr : A.InRange A.timeArith (t.conv.tdiv 86400 + 4) := by
    have := timeArith_bounds A
    have := t.conv_inRange
    unfold Abi.InRange at *
    rw [tdiv_of_pos _ (by decide)] at *
    split at * <;> omega
  have hs : binop A .add ⟨A.timeArith, t.conv.tdiv 86400⟩ ⟨.int, 4⟩ =
      some ⟨A.timeArith, t.conv.tdiv 86400 + 4⟩ :=
    binop_of_inRange (timeArith_common A (.inl rfl)) (Abi.convert_of_inRange hqr)
      (convert_timeArith_const (by decide) (by decide)) (by decide) hsr
  have hr : binop A .rem ⟨A.timeArith, t.conv.tdiv 86400 + 4⟩ daysPerWeek =
      some ⟨A.timeArith, (t.conv.tdiv 86400 + 4).tmod 7⟩ :=
    binop_divRem (.inr rfl) (timeArith_common A (.inr (.inl rfl))) (Abi.convert_of_inRange hsr)
      rfl (by decide) (by decide) hsr
  simp [dayOfWeek, secsPerDay_eq, BinOp.eval, hq, hs, hr]

end Formulas

end DateTime
end Sming
