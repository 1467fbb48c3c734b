import Sming.WString.Layout

/-!
# Sming.WString.Rep

The storage representation of `String`: the union fields read from the object's bytes, the
accessors `isNull`, `length`, `capacity` and `cbuffer`, and `setlen`, which every operation
that changes the length calls.

`Str.Inv` is the representation invariant: in SSO mode `sso.len` is at most `SSO_CAPACITY`; in
heap mode either the string is null (null buffer, zero length and capacity) or `ptr.buffer`
is an allocation of `capacity + 1` bytes and `len ≤ capacity`.

* `setlen_spec`: for every admitted configuration, from every state satisfying `Inv` and every
  `n ≤ capacity()`, `setlen(n)` writes inside the active buffer, keeps the mode and
  `isNull()`, makes `length()` equal to `n` with a terminator at `n`, and keeps `Inv`.
* `setlen_frame`: it changes no other byte of the object or element of the buffer, nor any
  other allocation.
* `setlen_past_capacity`: the precondition `n ≤ capacity()` is needed: past it, `setlen(n)`
  writes outside the buffer of a non-null string and leaves a null one outside `Inv`.
* `setlenAll_spec`: every run of `setlen` calls within the starting capacity keeps `Inv`, and
  an element whose index no call asked for is never changed.
* `construct_isNull_iff`: `String()` is a null string whatever the storage held before exactly
  when `STRING_OBJECT_SIZE == sizeof(PtrBuf)`; otherwise `sso.set` is left unwritten, and
  storage that had it set reads as a non-null SSO string.
* `heap_capacity_lt_iff`: with `STRING_OBJECT_SIZE == sizeof(PtrBuf)`, and only then, the flags
  byte is the top byte of `ptr.capacity`, which bounds every heap-mode capacity by
  `2 ^ (8 * sizeof(size_t) - 1)`; otherwise every `size_t` capacity can be stored.

`moveAssign` is `operator=(String&&)`, over the `move` of `WString.cpp`, which is a parameter.
-/

namespace Sming
namespace WString

/-- A heap allocation: its size and its contents. -/
structure Block where
  size : Nat
  data : Nat → UInt8

/-- A `String` object: the bytes of its union, and the heap `ptr.buffer` points into. -/
structure Str where
  bytes : Nat → UInt8
  heap : Nat → Option Block

/-- Where `cbuffer()` points: the object's own `sso.buffer`, or the address in `ptr.buffer`. -/
inductive Loc where
  | sso
  | ptr (p : Nat)
  deriving DecidableEq

variable (c : Config)

namespace Str

/-- The last byte of `SsoBuf`: `sso.len` in bits 0 to 6, `sso.set` in bit 7. -/
def flags (s : Str) : Nat := (s.bytes (c.objectSize - 1)).toNat

/-- `sso.set`: true in SSO mode. -/
def ssoSet (s : Str) : Bool := decide (128 ≤ s.flags c)

def ssoLen (s : Str) : Nat := s.flags c % 128

def ptrBuffer (s : Str) : Nat := readLE s.bytes 0 c.wordSize

def ptrLen (s : Str) : Nat := readLE s.bytes c.wordSize c.wordSize

def ptrCapacity (s : Str) : Nat := readLE s.bytes (2 * c.wordSize) c.wordSize

/-- `isNull()`: `!sso.set && (ptr.buffer == nullptr)`. -/
def isNull (s : Str) : Bool := !s.ssoSet c && s.ptrBuffer c == 0

/-- `length()`: `sso.set ? sso.len : ptr.len`. -/
def length (s : Str) : Nat := if s.ssoSet c then s.ssoLen c else s.ptrLen c

/-- `capacity()`: `sso.set ? SSO_CAPACITY : ptr.capacity`. -/
def capacity (s : Str) : Nat := if s.ssoSet c then c.ssoCapacity else s.ptrCapacity c

/-- `cbuffer()`: `sso.set ? sso.buffer : ptr.buffer`. -/
def cbuffer (s : Str) : Loc := if s.ssoSet c then .sso else .ptr (s.ptrBuffer c)

/-- `p[i]`; `none` reads outside the array or allocation `p` points to. -/
def readAt (s : Str) : Loc → Nat → Option UInt8
  | .sso, i => if i < c.ssoCapacity + 1 then some (s.bytes i) else none
  | .ptr p, i =>
    match s.heap p with
    | some blk => if i < blk.size then some (blk.data i) else none
    | none => none

/-- `p[i] = v`; `none` writes outside the array or allocation `p` points to. -/
def writeAt (s : Str) : Loc → Nat → UInt8 → Option Str
  | .sso, i, v =>
    if i < c.ssoCapacity + 1 then some ⟨Function.update s.bytes i v, s.heap⟩ else none
  | .ptr p, i, v =>
    match s.heap p with
    | some blk =>
      if i < blk.size then
        some ⟨s.bytes,
          Function.update s.heap p (some ⟨blk.size, Function.update blk.data i v⟩)⟩
      else none
    | none => none

/-- `setlen(len)`. Storing `len` in the 7-bit `sso.len` keeps `len % 128` and bit 7; storing it
in `ptr.len` keeps `len` modulo `2 ^ (8 * wordSize)`. -/
def setlen (s : Str) (len : Nat) : Option Str :=
  if s.ssoSet c then
    let s1 : Str := ⟨Function.update s.bytes (c.objectSize - 1)
      (UInt8.ofNat (s.flags c / 128 * 128 + len % 128)), s.heap⟩
    s1.writeAt c .sso len 0
  else
    let s1 : Str := ⟨writeLE s.bytes c.wordSize c.wordSize len, s.heap⟩
    if s1.ptrBuffer c ≠ 0 then s1.writeAt c (.ptr (s1.ptrBuffer c)) len 0 else some s1

/-- The representation invariant. -/
def Inv (s : Str) : Prop :=
  if s.ssoSet c then s.ssoLen c ≤ c.ssoCapacity
  else if s.ptrBuffer c = 0 then s.ptrLen c = 0 ∧ s.ptrCapacity c = 0
  else (s.heap (s.ptrBuffer c)).map Block.size = some (s.ptrCapacity c + 1) ∧
    s.ptrLen c ≤ s.ptrCapacity c

instance (s : Str) : Decidable (s.Inv c) := inferInstanceAs (Decidable (ite _ _ _))

/-! ### The fields after a write -/

variable {c}

theorem flags_lt (s : Str) : s.flags c < 256 := (s.bytes _).toNat_lt_size

/-- Writing `ptr.len` leaves `ptr.buffer`, `ptr.capacity` and the flags byte alone. -/
theorem fields_writeLen (s : Str) (n : Nat) (h : Nat → Option Block) :
    let s' : Str := ⟨writeLE s.bytes c.wordSize c.wordSize n, h⟩
    s'.ptrBuffer c = s.ptrBuffer c ∧ s'.ptrCapacity c = s.ptrCapacity c ∧
      s'.flags c = s.flags c ∧ s'.ptrLen c = n % 256 ^ c.wordSize := by
  have := c.ptrBuf_fits
  have := c.wordSize_pos
  refine ⟨readLE_writeLE_of_disjoint (by omega), readLE_writeLE_of_disjoint (by omega), ?_,
    readLE_writeLE _ _ _ _⟩
  simp only [flags]
  rw [writeLE_frame (by omega)]

theorem ptrCapacity_lt (s : Str) : s.ptrCapacity c < 256 ^ c.wordSize := readLE_lt _ _ _

/-- The state after `setlen(n)` in SSO mode. -/
theorem setlen_sso {s : Str} (hs : s.ssoSet c = true) {n : Nat} (hn : n ≤ c.ssoCapacity) :
    s.setlen c n = some ⟨Function.update (Function.update s.bytes (c.objectSize - 1)
      (UInt8.ofNat (s.flags c / 128 * 128 + n % 128))) n 0, s.heap⟩ := by
  simp only [setlen, hs, if_true, writeAt, if_pos (by omega : n < c.ssoCapacity + 1)]

/-- The state after `setlen(n)` in heap mode with a buffer. -/
theorem setlen_ptr {s : Str} (hs : s.ssoSet c = false) (hp : s.ptrBuffer c ≠ 0) {blk : Block}
    (hb : s.heap (s.ptrBuffer c) = some blk) {n : Nat} (hn : n < blk.size) :
    s.setlen c n = some ⟨writeLE s.bytes c.wordSize c.wordSize n, Function.update s.heap
      (s.ptrBuffer c) (some ⟨blk.size, Function.update blk.data n 0⟩)⟩ := by
  have hp1 := (fields_writeLen (c := c) s n s.heap).1
  simp only [setlen, hs, Bool.false_eq_true, if_false] at hp1 ⊢
  simp only [hp1, ne_eq, hp, not_false_eq_true, if_true, writeAt, hb, if_pos hn]

/-- The state after `setlen(n)` on a null string. -/
theorem setlen_null {s : Str} (hs : s.ssoSet c = false) (hp : s.ptrBuffer c = 0) (n : Nat) :
    s.setlen c n = some ⟨writeLE s.bytes c.wordSize c.wordSize n, s.heap⟩ := by
  have hp1 := (fields_writeLen (c := c) s n s.heap).1
  simp only [setlen, hs, Bool.false_eq_true, if_false] at hp1 ⊢
  simp [hp1, hp]

variable (c)

/-- What `setlen(n)` promises: the mode and `isNull()` kept, `length()` equal to `n`, the
terminator at `cbuffer()[n]` unless the string is null, and the invariant kept. -/
def SetlenPost (s s' : Str) (n : Nat) : Prop :=
  s'.ssoSet c = s.ssoSet c ∧ s'.isNull c = s.isNull c ∧ s'.length c = n ∧
    (s.isNull c = false → s'.readAt c (s'.cbuffer c) n = some 0) ∧ s'.Inv c

/-- What `setlen(n)` leaves alone: `cbuffer()`, `capacity()`, every byte of the object but the
length field (the flags byte and `sso.buffer[n]` in SSO mode, `ptr.len` in heap mode), every
element of the buffer but `cbuffer()[n]`, and every allocation other than the string's own
buffer. -/
def SetlenFrame (s s' : Str) (n : Nat) : Prop :=
  s'.cbuffer c = s.cbuffer c ∧ s'.capacity c = s.capacity c ∧
    (∀ i, (if s.ssoSet c then i ≠ n ∧ i ≠ c.objectSize - 1
      else i < c.wordSize ∨ 2 * c.wordSize ≤ i) → s'.bytes i = s.bytes i) ∧
    (∀ i, i ≠ n → s'.readAt c (s'.cbuffer c) i = s.readAt c (s.cbuffer c) i) ∧
    ∀ p, s.cbuffer c ≠ .ptr p → s'.heap p = s.heap p

variable {c}

theorem setlen_cases_sso {s : Str} (hs : s.ssoSet c = true) {n : Nat} (hn : n ≤ c.ssoCapacity) :
    ∃ s', s.setlen c n = some s' ∧ s.SetlenPost c s' n ∧ s.SetlenFrame c s' n := by
  have hS := c.ssoBuf_size
  have h128 := c.ssoCapacity_lt
  have hf := s.flags_lt (c := c)
  have hne : n ≠ c.objectSize - 1 := by unfold Config.ssoCapacity at hn; omega
  obtain ⟨s', hset, hF, hN, hB, hH⟩ : ∃ s', s.setlen c n = some s' ∧
      s'.flags c = s.flags c / 128 * 128 + n % 128 ∧ s'.bytes n = 0 ∧
      (∀ i, i ≠ n → i ≠ c.objectSize - 1 → s'.bytes i = s.bytes i) ∧
      s'.heap = s.heap := by
    refine ⟨_, setlen_sso hs hn, ?_, Function.update_same _ _ _,
      fun i h1 h2 => by simp only [Function.update_noteq h1, Function.update_noteq h2], rfl⟩
    simp only [flags, Function.update_noteq hne.symm, Function.update_same, UInt8.toNat_ofNat']
    simp only [flags] at hf
    omega
  have hs' : 128 ≤ s.flags c := by simpa [ssoSet] using hs
  have h1 : 128 ≤ s.flags c / 128 * 128 + n % 128 := by omega
  have h2 : (s.flags c / 128 * 128 + n % 128) % 128 = n := by omega
  have hc : s.cbuffer c = .sso := by simp [cbuffer, hs]
  have hc' : s'.cbuffer c = .sso := by simp [cbuffer, ssoSet, hF, h1]
  refine ⟨s', hset, ?_, hc'.trans hc.symm, by simp [capacity, ssoSet, hF, h1, hs'],
    fun i hi => hB i (if_pos hs ▸ hi).1 (if_pos hs ▸ hi).2, fun i hi => ?_,
    fun p _ => by rw [hH]⟩
  · simp [SetlenPost, ssoSet, isNull, length, cbuffer, ssoLen, readAt, Inv, hF, hN, h1, h2, hs',
      if_pos (by omega : n < c.ssoCapacity + 1), hn]
  · simp only [hc, hc', readAt]
    split_ifs with hi'
    · rw [hB i hi (by unfold Config.ssoCapacity at hi'; omega)]
    · rfl

theorem setlen_cases_ptr {s : Str} (hs : s.ssoSet c = false) (hp : s.ptrBuffer c ≠ 0)
    {blk : Block} (hb : s.heap (s.ptrBuffer c) = some blk)
    (hsize : blk.size = s.ptrCapacity c + 1) {n : Nat} (hn : n ≤ s.ptrCapacity c) :
    ∃ s', s.setlen c n = some s' ∧ s.SetlenPost c s' n ∧ s.SetlenFrame c s' n := by
  obtain ⟨hb0, hcap0, hf0, hl0⟩ := fields_writeLen (c := c) s n (Function.update s.heap
    (s.ptrBuffer c) (some ⟨blk.size, Function.update blk.data n 0⟩))
  have hn' : n % 256 ^ c.wordSize = n :=
    Nat.mod_eq_of_lt (Nat.lt_of_le_of_lt hn (ptrCapacity_lt s))
  obtain ⟨s', hset, hF, hB, hC, hL, hW, hH, hO⟩ : ∃ s', s.setlen c n = some s' ∧
      s'.flags c = s.flags c ∧ s'.ptrBuffer c = s.ptrBuffer c ∧
      s'.ptrCapacity c = s.ptrCapacity c ∧ s'.ptrLen c = n ∧
      (∀ i, i < c.wordSize ∨ 2 * c.wordSize ≤ i → s'.bytes i = s.bytes i) ∧
      s'.heap (s.ptrBuffer c) = some ⟨blk.size, Function.update blk.data n 0⟩ ∧
      ∀ p, p ≠ s.ptrBuffer c → s'.heap p = s.heap p :=
    ⟨_, setlen_ptr hs hp hb (by omega), hf0, hb0, hcap0, hl0.trans hn',
      fun _ h => writeLE_frame (by omega), Function.update_same _ _ _,
      fun _ h => Function.update_noteq h _ _⟩
  have hs' : ¬128 ≤ s.flags c := by simpa [ssoSet] using hs
  have hc : s.cbuffer c = .ptr (s.ptrBuffer c) := by simp [cbuffer, hs]
  have hc' : s'.cbuffer c = .ptr (s.ptrBuffer c) := by simp [cbuffer, ssoSet, hF, hB, hs']
  refine ⟨s', hset, ?_, hc'.trans hc.symm, by simp [capacity, ssoSet, hF, hC, hs'],
    fun i hi => hW i (by rwa [hs, if_neg Bool.false_ne_true] at hi), fun i hi => ?_,
    fun p hp' => hO p ?_⟩
  · simp [SetlenPost, ssoSet, isNull, length, cbuffer, readAt, Inv, hF, hB, hC, hL, hH, hs', hp,
      hsize, Nat.lt_succ_of_le hn, hn]
  · simp [hc, hc', readAt, hH, hb, Function.update_noteq hi]
  · rintro rfl
    exact hp' hc

theorem setlen_cases_null {s : Str} (hs : s.ssoSet c = false) (hp : s.ptrBuffer c = 0)
    (hcap : s.ptrCapacity c = 0) :
    ∃ s', s.setlen c 0 = some s' ∧ s.SetlenPost c s' 0 ∧ s.SetlenFrame c s' 0 := by
  obtain ⟨hb0, hcap0, hf0, hl0⟩ := fields_writeLen (c := c) s 0 s.heap
  obtain ⟨s', hset, hF, hB, hC, hL, hW, hH⟩ : ∃ s', s.setlen c 0 = some s' ∧
      s'.flags c = s.flags c ∧ s'.ptrBuffer c = s.ptrBuffer c ∧
      s'.ptrCapacity c = s.ptrCapacity c ∧ s'.ptrLen c = 0 ∧
      (∀ i, i < c.wordSize ∨ 2 * c.wordSize ≤ i → s'.bytes i = s.bytes i) ∧
      s'.heap = s.heap :=
    ⟨_, setlen_null hs hp 0, hf0, hb0, hcap0, by simpa using hl0,
      fun _ h => writeLE_frame (by omega), rfl⟩
  have hs' : ¬128 ≤ s.flags c := by simpa [ssoSet] using hs
  have hc : s'.cbuffer c = s.cbuffer c := by simp [cbuffer, ssoSet, hF, hB]
  refine ⟨s', hset, ?_, hc, by simp [capacity, ssoSet, hF, hC],
    fun i hi => hW i (by rwa [hs, if_neg Bool.false_ne_true] at hi), fun i _ => ?_,
    fun p _ => by rw [hH]⟩
  · simp [SetlenPost, ssoSet, isNull, length, Inv, hF, hB, hC, hL, hs', hp, hcap]
  · rw [hc]
    simp [cbuffer, hs, readAt, hH]

/-- `setlen(n)` for every `n ≤ capacity()` from every state satisfying `Inv`: its promise and
its frame. -/
theorem setlen_cases (s : Str) (hinv : s.Inv c) (n : Nat) (hn : n ≤ s.capacity c) :
    ∃ s', s.setlen c n = some s' ∧ s.SetlenPost c s' n ∧ s.SetlenFrame c s' n := by
  cases hs : s.ssoSet c with
  | true =>
    simp only [capacity, hs, if_true] at hn
    exact setlen_cases_sso hs hn
  | false =>
    simp only [Inv, capacity, hs, Bool.false_eq_true, if_false] at hinv hn
    by_cases hp : s.ptrBuffer c = 0
    · rw [if_pos hp] at hinv
      obtain rfl : n = 0 := by omega
      exact setlen_cases_null hs hp hinv.2
    · rw [if_neg hp] at hinv
      obtain ⟨hblk, -⟩ := hinv
      obtain ⟨blk, hb, hsize⟩ : ∃ blk, s.heap (s.ptrBuffer c) = some blk ∧
          blk.size = s.ptrCapacity c + 1 := by
        cases h : s.heap (s.ptrBuffer c) with
        | none => simp [h] at hblk
        | some blk => exact ⟨blk, rfl, by simpa [h] using hblk⟩
      exact setlen_cases_ptr hs hp hb hsize hn

/-- `setlen(n)` for every `n ≤ capacity()`, from every state satisfying the invariant. -/
theorem setlen_spec (s : Str) (hinv : s.Inv c) (n : Nat) (hn : n ≤ s.capacity c) :
    ∃ s', s.setlen c n = some s' ∧ s.SetlenPost c s' n :=
  let ⟨s', hset, hpost, _⟩ := setlen_cases s hinv n hn
  ⟨s', hset, hpost⟩

/-- `"aaa"` in SSO mode in the default 32-bit build: three `'a'`, the terminator, and the
flags byte `0x83` (`sso.set`, `sso.len = 3`). -/
def aaa : Str := ⟨fun i => if i = 11 then 131 else if i < 3 then 97 else 0, fun _ => none⟩

/-- Storage of zero bytes and an empty heap: a null string in every configuration. -/
def zeroed : Str := ⟨fun _ => 0, fun _ => none⟩

/-- `"aaa"` lengthened to 7. -/
theorem setlen_spec_aaa :
    aaa.Inv Config.default32 ∧ 7 ≤ aaa.capacity Config.default32 ∧
      ∃ s', aaa.setlen Config.default32 7 = some s' ∧ aaa.SetlenPost Config.default32 s' 7 :=
  ⟨by decide, by decide, setlen_spec _ (by decide) 7 (by decide)⟩

/-- `setlen(n)` writes nothing but the length field and `cbuffer()[n]`. -/
theorem setlen_frame (s : Str) (hinv : s.Inv c) (n : Nat) (hn : n ≤ s.capacity c) :
    ∃ s', s.setlen c n = some s' ∧ s.SetlenFrame c s' n :=
  let ⟨s', hset, _, hframe⟩ := setlen_cases s hinv n hn
  ⟨s', hset, hframe⟩

/-- `"aaa"` cut to 1: the other bytes of `sso.buffer` stay. -/
theorem setlen_frame_aaa :
    aaa.Inv Config.default32 ∧ 1 ≤ aaa.capacity Config.default32 ∧
      ∃ s', aaa.setlen Config.default32 1 = some s' ∧ aaa.SetlenFrame Config.default32 s' 1 :=
  ⟨by decide, by decide, setlen_frame _ (by decide) 1 (by decide)⟩

/-- In heap mode with a buffer, `Inv` gives the allocation: `capacity + 1` bytes at
`ptr.buffer`. -/
theorem heapBlock_of_inv {s : Str} (hinv : s.Inv c) (hs : s.ssoSet c = false)
    (hp : s.ptrBuffer c ≠ 0) : ∃ blk, s.heap (s.ptrBuffer c) = some blk ∧
      blk.size = s.ptrCapacity c + 1 ∧ s.ptrLen c ≤ s.ptrCapacity c := by
  simp only [Inv, hs, Bool.false_eq_true, if_false, if_neg hp] at hinv
  cases h : s.heap (s.ptrBuffer c) with
  | none => simp [h] at hinv
  | some blk => exact ⟨blk, rfl, by simpa [h] using hinv.1, hinv.2⟩

variable (c)

/-- What `setlen(n)` does past `capacity()`: a non-null string would be written outside its
buffer (`none`); a null string is left with `length() == n` and no buffer, outside `Inv`. -/
def SetlenPastCapacity (s : Str) (n : Nat) : Prop :=
  if s.isNull c then ∃ s', s.setlen c n = some s' ∧ s'.length c = n ∧ ¬s'.Inv c
  else s.setlen c n = none

variable {c}

/-- `setlen(n)`'s precondition `n ≤ capacity()` cannot be weakened: for every `size_t` past it,
from every state satisfying `Inv`, `setlen(n)` writes outside the buffer or breaks `Inv`. -/
theorem setlen_past_capacity (s : Str) (hinv : s.Inv c) (n : Nat) (hcap : s.capacity c < n)
    (hn : n < 256 ^ c.wordSize) : s.SetlenPastCapacity c n := by
  cases hs : s.ssoSet c with
  | true =>
    simp only [capacity, hs, if_true] at hcap
    simp [SetlenPastCapacity, isNull, hs, setlen, writeAt, show ¬n < c.ssoCapacity + 1 by omega]
  | false =>
    simp only [capacity, hs, Bool.false_eq_true, if_false] at hcap
    obtain ⟨hb0, -, hf0, hl0⟩ := fields_writeLen (c := c) s n s.heap
    by_cases hp : s.ptrBuffer c = 0
    · rw [Nat.mod_eq_of_lt hn] at hl0
      have hs' : Str.ssoSet c ⟨writeLE s.bytes c.wordSize c.wordSize n, s.heap⟩ = false := by
        simp only [ssoSet, hf0] at hs ⊢; exact hs
      have hnull : s.isNull c = true := by simp [isNull, hs, hp]
      simp only [SetlenPastCapacity, hnull, if_true]
      refine ⟨_, setlen_null hs hp n, by simp [length, hs', hl0], fun h => ?_⟩
      simp only [Inv, hs', hb0, hp, hl0, Bool.false_eq_true, if_false, if_true] at h
      omega
    · obtain ⟨blk, hb, hsize, -⟩ := heapBlock_of_inv hinv hs hp
      have hnull : s.isNull c = false := by simp [isNull, hp]
      simp only [SetlenPastCapacity, hnull, Bool.false_eq_true, if_false, setlen, hs, hb0,
        ne_eq, hp, not_false_eq_true, if_true, writeAt, hb, hsize]
      rw [if_neg (by omega)]

/-- The null string of the default 32-bit build, given length 1. -/
theorem setlen_past_capacity_null :
    zeroed.Inv Config.default32 ∧ zeroed.capacity Config.default32 < 1 ∧
      1 < 256 ^ Config.default32.wordSize ∧ zeroed.SetlenPastCapacity Config.default32 1 :=
  ⟨by decide, by decide, by decide,
    setlen_past_capacity _ (by decide) 1 (by decide) (by decide)⟩

/-! ### Runs of `setlen` -/

variable (c)

/-- `setlen` called with each length of `ns` in turn. -/
def setlenAll (s : Str) : List Nat → Option Str
  | [] => some s
  | n :: ns => (s.setlen c n).bind fun s' => s'.setlenAll ns

/-- What a run of `setlen` calls with lengths `ns` keeps: the invariant, `isNull()`,
`cbuffer()` and `capacity()`; `length()` is the last length asked for; and the elements at
indices never asked for, like every other allocation, are left alone. -/
def RunFrame (s s' : Str) (ns : List Nat) : Prop :=
  s'.Inv c ∧ s'.isNull c = s.isNull c ∧ s'.cbuffer c = s.cbuffer c ∧
    s'.capacity c = s.capacity c ∧ s'.length c = ns.getLastD (s.length c) ∧
    (∀ i, i ∉ ns → s'.readAt c (s'.cbuffer c) i = s.readAt c (s.cbuffer c) i) ∧
    ∀ p, s.cbuffer c ≠ .ptr p → s'.heap p = s.heap p

variable {c}

/-- Every run of `setlen` calls within the starting `capacity()` succeeds and keeps
`RunFrame`. -/
theorem setlenAll_spec (s : Str) (hinv : s.Inv c) (ns : List Nat)
    (hns : ∀ n ∈ ns, n ≤ s.capacity c) :
    ∃ s', s.setlenAll c ns = some s' ∧ s.RunFrame c s' ns := by
  induction ns generalizing s with
  | nil => exact ⟨s, rfl, hinv, rfl, rfl, rfl, rfl, fun _ _ => rfl, fun _ _ => rfl⟩
  | cons n ns ih =>
    obtain ⟨s1, h1, ⟨-, hnull1, hlen1, -, hinv1⟩, hcb1, hcap1, -, hread1, hheap1⟩ :=
      setlen_cases s hinv n (hns n (List.mem_cons_self n ns))
    obtain ⟨s2, h2, hinv2, hnull2, hcb2, hcap2, hlen2, hread2, hheap2⟩ :=
      ih s1 hinv1 fun m hm => hcap1 ▸ hns m (List.mem_cons_of_mem n hm)
    refine ⟨s2, by simp [setlenAll, h1, h2], hinv2, hnull2.trans hnull1, hcb2.trans hcb1,
      hcap2.trans hcap1, by rw [hlen2, hlen1, List.getLastD_cons], fun i hi => ?_,
      fun p hp => ?_⟩
    · rw [List.mem_cons, not_or] at hi
      rw [hread2 i hi.2, hread1 i hi.1]
    · rw [hheap2 p (hcb1 ▸ hp), hheap1 p hp]

/-- `"aaa"` cut to 1 and lengthened to 7. -/
theorem setlenAll_spec_aaa :
    aaa.Inv Config.default32 ∧ (∀ n ∈ [1, 7], n ≤ aaa.capacity Config.default32) ∧
      ∃ s', aaa.setlenAll Config.default32 [1, 7] = some s' ∧
        aaa.RunFrame Config.default32 s' [1, 7] :=
  ⟨by decide, by decide, setlenAll_spec _ (by decide) [1, 7] (by decide)⟩

/-! ### The default constructor -/

variable (c)

/-- `String()`: `ptr{nullptr, 0, 0}` initialises the three `PtrBuf` words and no other byte of
the union; `s` is the storage before construction. -/
def construct (s : Str) : Str :=
  ⟨writeLE (writeLE (writeLE s.bytes 0 c.wordSize 0) c.wordSize c.wordSize 0)
    (2 * c.wordSize) c.wordSize 0, s.heap⟩

variable {c}

theorem construct_ptr (s : Str) : (s.construct c).ptrBuffer c = 0 ∧
    (s.construct c).ptrLen c = 0 ∧ (s.construct c).ptrCapacity c = 0 := by
  have := c.wordSize_pos
  simp only [construct, ptrBuffer, ptrLen, ptrCapacity]
  refine ⟨?_, ?_, ?_⟩
  · rw [readLE_writeLE_of_disjoint (by omega), readLE_writeLE_of_disjoint (by omega),
      readLE_writeLE, Nat.zero_mod]
  · rw [readLE_writeLE_of_disjoint (by omega), readLE_writeLE, Nat.zero_mod]
  · rw [readLE_writeLE, Nat.zero_mod]

/-- Past `sizeof(PtrBuf)` the flags byte is the one the storage held before. -/
theorem construct_flags_of_lt (s : Str) (h : 3 * c.wordSize < c.objectSize) :
    (s.construct c).flags c = s.flags c := by
  simp only [construct, flags]
  rw [writeLE_frame (by omega), writeLE_frame (by omega), writeLE_frame (by omega)]

/-- With `STRING_OBJECT_SIZE == sizeof(PtrBuf)` the flags byte is the top byte of
`ptr.capacity`. -/
theorem construct_flags_of_eq (s : Str) (h : c.objectSize = 3 * c.wordSize) :
    (s.construct c).flags c = 0 := by
  have := c.wordSize_pos
  simp only [construct, flags, writeLE]
  rw [if_pos (by omega), Nat.zero_div]
  rfl

/-- Past `sizeof(PtrBuf)`, storage whose flags byte had `sso.set` reads after `String()` as a
non-null SSO string, with the `sso.len` it held before. -/
theorem construct_sso_of_lt (h : 3 * c.wordSize < c.objectSize) {s : Str}
    (hs : s.ssoSet c = true) : (s.construct c).ssoSet c = true ∧
      (s.construct c).isNull c = false ∧ (s.construct c).length c = s.ssoLen c := by
  have hf := construct_flags_of_lt s h
  have hs' : (s.construct c).ssoSet c = true := by rw [ssoSet, hf]; exact hs
  exact ⟨hs', by simp [isNull, hs'], by simp [length, ssoLen, hs', hf]⟩

/-- `String()` yields a null string satisfying the invariant, whatever the storage held before,
exactly when `STRING_OBJECT_SIZE == sizeof(PtrBuf)`; with a larger `STRING_OBJECT_SIZE`,
`sso.set` is a bit that the constructor never writes, and storage that had it set reads as a
non-null SSO string of the length `sso.len` held. -/
theorem construct_isNull_iff :
    ((∀ s : Str, (s.construct c).isNull c = true ∧ (s.construct c).Inv c) ↔
      c.objectSize = 3 * c.wordSize) ∧
      (3 * c.wordSize < c.objectSize → ∀ s : Str, s.ssoSet c = true →
        (s.construct c).isNull c = false ∧ (s.construct c).length c = s.ssoLen c) := by
  have := c.ptrBuf_fits
  refine ⟨⟨fun h => ?_, fun h s => ?_⟩, fun h s hs => (construct_sso_of_lt h hs).2⟩
  · by_contra hne
    have h128 := (construct_sso_of_lt (c := c) (by omega)
      (s := ⟨fun _ => 128, fun _ => none⟩) rfl).2.1
    exact Bool.false_ne_true (h128.symm.trans (h _).1)
  · obtain ⟨hb, hl, hcap⟩ := construct_ptr (c := c) s
    simp [isNull, Inv, ssoSet, construct_flags_of_eq s h, hb, hl, hcap]

/-- `STRING_OBJECT_SIZE = 16` on a 32-bit target: storage whose last byte held `0xFF` reads as
an SSO string of length 127 after `String()`. -/
example : (Str.construct ⟨16, 4, by decide, by decide, by decide, by decide, by decide⟩
    ⟨fun _ => 255, fun _ => none⟩).isNull ⟨16, 4, by decide, by decide, by decide, by decide,
      by decide⟩ = false := by decide

/-! ### Move assignment -/

/-- `operator=(String&& rval)`: `if(this != &rval) move(rval)`. `move`, whose body is in
`WString.cpp`, maps the pair (`*this`, `rval`) to the pair after the move; `self` is
`this == &rval`, where both components are the one object and nothing is written. -/
def moveAssign (move : Str → Str → Str × Str) (self : Bool) (s rval : Str) : Str × Str :=
  if self then (s, rval) else move s rval

/-! ### The flags byte and `ptr.capacity` -/

/-- In heap mode `ptr.capacity` stays below `2 ^ (8 * sizeof(size_t) - 1)` in every object
exactly when `STRING_OBJECT_SIZE == sizeof(PtrBuf)`: the flags byte is then the top byte of
`ptr.capacity`, and `sso.set` its top bit, so a larger capacity would read as SSO mode. With a
larger `STRING_OBJECT_SIZE` the two do not overlap: storing any `size_t` in `ptr.capacity`
leaves `sso.set` as it was. -/
theorem heap_capacity_lt_iff :
    ((∀ s : Str, s.ssoSet c = false → s.ptrCapacity c < 128 * 256 ^ (c.wordSize - 1)) ↔
      c.objectSize = 3 * c.wordSize) ∧
      (3 * c.wordSize < c.objectSize → ∀ (s : Str) (v : Nat), v < 256 ^ c.wordSize →
        let s' : Str := ⟨writeLE s.bytes (2 * c.wordSize) c.wordSize v, s.heap⟩
        s'.ssoSet c = s.ssoSet c ∧ s'.ptrCapacity c = v) := by
  have hW := c.wordSize_pos
  have hfit := c.ptrBuf_fits
  obtain ⟨k, hk⟩ : ∃ k, c.wordSize = k + 1 := ⟨c.wordSize - 1, by omega⟩
  refine ⟨⟨fun h => ?_, fun h s hs => ?_⟩, fun h s v hv => ⟨?_, ?_⟩⟩
  · by_contra hne
    have hcap := h ⟨fun i => if i = c.objectSize - 1 then 0 else 255, fun _ => none⟩
      (by simp [ssoSet, flags])
    rw [ptrCapacity, readLE_of_ff fun i _ _ => if_neg (by omega), hk, Nat.add_sub_cancel,
      Nat.pow_succ] at hcap
    omega
  · have hlo := readLE_lt s.bytes (2 * c.wordSize) k
    have hf : s.flags c < 128 := by simpa [ssoSet] using hs
    have htop : s.flags c * 256 ^ k ≤ 127 * 256 ^ k := Nat.mul_le_mul_right _ (by omega)
    simp only [flags, show c.objectSize - 1 = 2 * c.wordSize + k by omega] at hf htop
    rw [ptrCapacity, hk, readLE, Nat.add_sub_cancel, ← hk]
    omega
  · have hF : Str.flags c ⟨writeLE s.bytes (2 * c.wordSize) c.wordSize v, s.heap⟩ =
        s.flags c :=
      congrArg UInt8.toNat (writeLE_frame (by omega))
    simp only [ssoSet, hF]
  · rw [ptrCapacity, readLE_writeLE, Nat.mod_eq_of_lt hv]

end Str

end WString
end Sming
