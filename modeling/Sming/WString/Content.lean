import Sming.WString.Rep

/-!
# Sming.WString.Content

What a `String` holds, over the byte-level representation of `Sming.WString.Rep`: nothing (a
null, invalid string) or a sequence of bytes. `Str.view` reads it from the representation,
and `Wf` packs a representation with the invariant and the terminator `c_str()` relies on, so
that only well-formed strings can be built.

* `Resized v v' n` is what setting the length to `n` means for the value: a null string stays
  null, and otherwise the new content has `n` bytes and is a prefix of the old content or
  extends it.
* `setlen_refines`: `setlen(n)` on a well-formed string, for every `n ≤ capacity()`, yields a
  well-formed string whose value is `Resized` from the old one.
* `setlen_length`: `setlen(length())` leaves a well-formed string's bytes and heap exactly as
  they were.
* `Wf.construct`: with `STRING_OBJECT_SIZE == sizeof(PtrBuf)`, `String()` builds a well-formed
  null string from any storage (`construct_view`).
-/

namespace Sming
namespace WString

variable (c : Config)

namespace Str

/-- The first `length()` bytes of `cbuffer()`. -/
def content (s : Str) : List UInt8 :=
  (List.range (s.length c)).map fun i => (s.readAt c (s.cbuffer c) i).getD 0

/-- The value of the string: `none` when `isNull()`. -/
def view (s : Str) : Option (List UInt8) := if s.isNull c then none else some (s.content c)

/-- `cbuffer()[length()]` is `'\0'` unless the string is null. -/
def Terminated (s : Str) : Prop :=
  s.isNull c = false → s.readAt c (s.cbuffer c) (s.length c) = some 0

end Str

/-- A well-formed `String` representation. -/
structure Wf where
  str : Str
  inv : str.Inv c
  terminated : str.Terminated c

/-- The abstract effect of setting the length to `n`. -/
def Resized : Option (List UInt8) → Option (List UInt8) → Nat → Prop
  | none, none, _ => True
  | some l, some l', n => l'.length = n ∧ (l' <+: l ∨ l <+: l')
  | _, _, _ => False

variable {c}

namespace Str

/-- Every successful `setlen(n)` with `n ≤ capacity()` meets `SetlenPost` and `SetlenFrame`. -/
theorem setlen_post {s s' : Str} (hinv : s.Inv c) {n : Nat} (hn : n ≤ s.capacity c)
    (h : s.setlen c n = some s') : s.SetlenPost c s' n ∧ s.SetlenFrame c s' n := by
  obtain ⟨s'', h', hpost, hframe⟩ := setlen_cases s hinv n hn
  obtain rfl : s' = s'' := Option.some.inj (h.symm.trans h')
  exact ⟨hpost, hframe⟩

/-- Contents read through two functions that agree below both lengths: the shorter is a prefix
of the longer. -/
theorem map_range_agree {f g : Nat → UInt8} {m n : Nat} (hmn : m ≤ n)
    (h : ∀ i, i < m → f i = g i) : (List.range m).map f <+: (List.range n).map g := by
  have hfg : (List.range m).map f = (List.range m).map g :=
    List.map_congr_left fun i hi => h i (List.mem_range.1 hi)
  rw [hfg, ← Nat.min_eq_left hmn, ← List.take_range, List.map_take]
  exact List.take_prefix _ _

/-- A state meeting `setlen(n)`'s promise and frame holds the `Resized` value. -/
theorem view_resized {s s' : Str} {n : Nat} (hpost : s.SetlenPost c s' n)
    (hframe : s.SetlenFrame c s' n) : Resized (s.view c) (s'.view c) n := by
  obtain ⟨-, hnull, hlen, -, -⟩ := hpost
  obtain ⟨-, -, -, hread, -⟩ := hframe
  have hagree : ∀ i, i < n → (s'.readAt c (s'.cbuffer c) i).getD 0 =
      (s.readAt c (s.cbuffer c) i).getD 0 := fun i hi => by rw [hread i (by omega)]
  cases hs : s.isNull c with
  | true => simp [view, hnull, hs, Resized]
  | false =>
    simp only [view, hnull, hs, Bool.false_eq_true, if_false, Resized, content, hlen,
      List.length_map, List.length_range, true_and]
    rcases Nat.le_total n (s.length c) with hle | hle
    · exact .inl (map_range_agree hle hagree)
    · exact .inr (map_range_agree hle fun i hi => (hagree i (by omega)).symm)

end Str

namespace Wf

/-- `setlen(n)` on a well-formed string, for `n ≤ capacity()`. -/
def setlen (w : Wf c) (n : Nat) (hn : n ≤ w.str.capacity c) : Wf c :=
  match h : w.str.setlen c n with
  | some s' =>
    have hpost := (Str.setlen_post w.inv hn h).1
    ⟨s', hpost.2.2.2.2, fun hnull => hpost.2.2.1 ▸ hpost.2.2.2.1 (hpost.2.1 ▸ hnull)⟩
  | none => absurd h (by
      obtain ⟨_, h', _⟩ := Str.setlen_cases w.str w.inv n hn
      simp [h'])

theorem setlen_str (w : Wf c) (n : Nat) (hn : n ≤ w.str.capacity c) :
    w.str.setlen c n = some (w.setlen n hn).str := by
  unfold setlen
  split
  · next s' h => exact h
  · next h =>
    obtain ⟨_, h', _⟩ := Str.setlen_cases w.str w.inv n hn
    simp [h'] at h

/-- `setlen(n)` refines `Resized`: the value keeps its first `min n length()` bytes and gets
`n` of them, and a null string stays null. -/
theorem setlen_refines (w : Wf c) (n : Nat) (hn : n ≤ w.str.capacity c) :
    Resized (w.str.view c) ((w.setlen n hn).str.view c) n :=
  let ⟨hpost, hframe⟩ := Str.setlen_post w.inv hn (setlen_str w n hn)
  Str.view_resized hpost hframe

/-- `Str.aaa` lengthened to 7. -/
theorem setlen_refines_aaa :
    let w : Wf Config.default32 := ⟨Str.aaa, by decide, fun _ => by decide⟩
    7 ≤ w.str.capacity Config.default32 ∧
      Resized (w.str.view Config.default32)
        ((w.setlen 7 (by decide)).str.view Config.default32) 7 :=
  ⟨by decide, setlen_refines _ 7 (by decide)⟩

/-- `setlen(length())` rewrites `length()` and the terminator with the values they already
have: on a well-formed string it changes no byte of the object or of the heap. -/
theorem setlen_length (w : Wf c) : w.str.setlen c (w.str.length c) = some w.str := by
  obtain ⟨s, hinv, hterm⟩ := w
  show s.setlen c (s.length c) = some s
  cases hs : s.ssoSet c with
  | true =>
    have hf := s.flags_lt (c := c)
    simp only [Str.Inv, hs, if_true, Str.ssoLen] at hinv
    have hlen : s.length c = s.flags c % 128 := by simp [Str.length, hs, Str.ssoLen]
    have h0 : s.bytes (s.flags c % 128) = 0 := by
      have := hterm (by simp [Str.isNull, hs])
      simp only [Str.cbuffer, hs, if_true, Str.readAt, hlen] at this
      rw [if_pos (by omega)] at this
      exact Option.some.inj this
    have hbyte : UInt8.ofNat (s.flags c / 128 * 128 + s.flags c % 128 % 128) =
        s.bytes (c.objectSize - 1) := by
      apply UInt8.toNat.inj
      rw [UInt8.toNat_ofNat']
      show _ = s.flags c
      omega
    rw [hlen, Str.setlen_sso hs hinv, hbyte, Function.update_eq_self, ← h0,
      Function.update_eq_self]
  | false =>
    have hlen : s.length c = s.ptrLen c := by simp [Str.length, hs]
    rw [hlen]
    by_cases hp : s.ptrBuffer c = 0
    · rw [Str.setlen_null hs hp, Str.ptrLen, writeLE_readLE]
    · obtain ⟨blk, hb, hsize, hle⟩ := Str.heapBlock_of_inv hinv hs hp
      have hn : s.ptrLen c < blk.size := by omega
      have h0 : blk.data (s.ptrLen c) = 0 := by
        have := hterm (by simp [Str.isNull, hs, hp])
        simp only [Str.cbuffer, hs, Bool.false_eq_true, if_false, Str.readAt, hb, hlen,
          if_pos hn] at this
        exact Option.some.inj this
      rw [Str.setlen_ptr hs hp hb hn, ← h0, Function.update_eq_self,
        show (⟨blk.size, blk.data⟩ : Block) = blk from rfl, ← hb, Function.update_eq_self,
        Str.ptrLen, writeLE_readLE]

/-- `String()` when `STRING_OBJECT_SIZE == sizeof(PtrBuf)`. -/
def construct (h : c.objectSize = 3 * c.wordSize) (s : Str) : Wf c :=
  ⟨s.construct c, by
    obtain ⟨hb, hl, hcap⟩ := Str.construct_ptr (c := c) s
    simp [Str.Inv, Str.ssoSet, Str.construct_flags_of_eq s h, hb, hl, hcap], fun hnull => by
    obtain ⟨hb, -, -⟩ := Str.construct_ptr (c := c) s
    simp [Str.isNull, Str.ssoSet, Str.construct_flags_of_eq s h, hb] at hnull⟩

theorem construct_view (h : c.objectSize = 3 * c.wordSize) (s : Str) :
    (construct h s).str.view c = none := by
  obtain ⟨hb, -, -⟩ := Str.construct_ptr (c := c) s
  simp [construct, Str.view, Str.isNull, Str.ssoSet, Str.construct_flags_of_eq s h, hb]

end Wf

end WString
end Sming
