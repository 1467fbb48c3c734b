import Sming.CInt

/-!
# Sming.WString.Pad

`padLeft` and `padRight` on a non-null string's content. Both take a `uint16_t` width and hand
`pad` an `int16_t`: `padLeft` passes `int16_t(-minWidth)` and `padRight` `int16_t(minWidth)`.
A width above `INT16_MAX` does not survive the conversion, so it arrives at `pad` with the
other sign and a magnitude of `65536 - minWidth`.

`pad`'s body is not among the sources; `pad` here follows its documented contract.

* `padLeft_eq`, `padRight_eq`: both functions for every `uint16_t` width. They behave as
  documented (`docPadLeft`, `docPadRight`) for widths up to `32768` and `32767`, and pad the
  other end to `65536 - minWidth` above.
* `padLeft_wrong_end`: a width of `65532` pads `"ab"` at its end, to four characters.
-/

namespace Sming
namespace WString

/-- Modelled from the spec: `String::pad(int16_t minWidth, char c)`, whose body is not in the
sources. It inserts copies of `c` until the length reaches `|minWidth|`, at the start if
`minWidth < 0` and at the end otherwise, and does nothing if the length is already at least
`|minWidth|`. -/
def pad (s : List UInt8) (minWidth : Int) (c : UInt8) : List UInt8 :=
  if minWidth.natAbs ≤ s.length then s
  else if minWidth < 0 then List.replicate (minWidth.natAbs - s.length) c ++ s
  else s ++ List.replicate (minWidth.natAbs - s.length) c

/-- `padLeft(minWidth, c)`: `pad(int16_t(-minWidth), c)`, where `-minWidth` is an `int`. -/
def padLeft (s : List UInt8) (minWidth : UInt16) (c : UInt8) : List UInt8 :=
  pad s (toSigned 16 (-(minWidth.toNat : Int))) c

/-- `padRight(minWidth, c)`: `pad(int16_t(minWidth), c)`. -/
def padRight (s : List UInt8) (minWidth : UInt16) (c : UInt8) : List UInt8 :=
  pad s (toSigned 16 minWidth.toNat) c

/-- `padLeft` as documented ("insert padding at start of string if length is less than
given width"): `minWidth - length` copies of `c`, then the content. -/
def docPadLeft (s : List UInt8) (minWidth : UInt16) (c : UInt8) : List UInt8 :=
  List.replicate (minWidth.toNat - s.length) c ++ s

/-- `padRight` as documented: the content, then `minWidth - length` copies of `c`. -/
def docPadRight (s : List UInt8) (minWidth : UInt16) (c : UInt8) : List UInt8 :=
  s ++ List.replicate (minWidth.toNat - s.length) c

theorem toSigned_16_neg {w : Nat} (h : w < 65536) :
    toSigned 16 (-(w : Int)) = if w ≤ 32768 then -(w : Int) else 65536 - w := by
  simp only [toSigned]
  split <;> omega

theorem toSigned_16 {w : Nat} (h : w < 65536) :
    toSigned 16 (w : Int) = if w < 32768 then (w : Int) else w - 65536 := by
  simp only [toSigned]
  split <;> omega

/-- `pad` to the start, for a negative width. -/
theorem pad_neg (s : List UInt8) (c : UInt8) {w : Nat} (hw : 0 < w) :
    pad s (-(w : Int)) c = List.replicate (w - s.length) c ++ s := by
  unfold pad
  split
  · rw [show w - s.length = 0 by omega, List.replicate_zero, List.nil_append]
  · rw [if_pos (by omega), Int.natAbs_neg, Int.natAbs_ofNat]

/-- `pad` to the end, for a non-negative width. -/
theorem pad_nonneg (s : List UInt8) (c : UInt8) (w : Nat) :
    pad s (w : Int) c = s ++ List.replicate (w - s.length) c := by
  unfold pad
  split
  · rw [show w - s.length = 0 by omega, List.replicate_zero, List.append_nil]
  · rw [if_neg (by omega), Int.natAbs_ofNat]

/-- `padLeft` for every `uint16_t` width: as documented up to `32768`; above, the width
reaches `pad` as the positive `65536 - minWidth`, and the padding goes at the end. -/
theorem padLeft_eq (s : List UInt8) (w : UInt16) (c : UInt8) :
    padLeft s w c = if w.toNat ≤ 32768 then docPadLeft s w c
      else s ++ List.replicate (65536 - w.toNat - s.length) c := by
  unfold padLeft docPadLeft
  rw [toSigned_16_neg w.toNat_lt_size]
  split
  · rcases Nat.eq_zero_or_pos w.toNat with h0 | h0
    · simp [h0, pad]
    · exact pad_neg s c h0
  · have : w.toNat < 65536 := w.toNat_lt_size
    rw [show 65536 - (w.toNat : Int) = ((65536 - w.toNat : Nat) : Int) by omega, pad_nonneg]

/-- `padRight` for every `uint16_t` width: as documented below `32768`; from there the width
reaches `pad` as the negative `minWidth - 65536`, and the padding goes at the start. -/
theorem padRight_eq (s : List UInt8) (w : UInt16) (c : UInt8) :
    padRight s w c = if w.toNat < 32768 then docPadRight s w c
      else List.replicate (65536 - w.toNat - s.length) c ++ s := by
  unfold padRight docPadRight
  rw [toSigned_16 w.toNat_lt_size]
  split
  · exact pad_nonneg s c _
  · have : w.toNat < 65536 := w.toNat_lt_size
    rw [show (w.toNat : Int) - 65536 = -((65536 - w.toNat : Nat) : Int) by omega,
      pad_neg s c (by omega)]

/-- `padLeft(65532, 'x')` on `"ab"` gives `"abxx"`, and `padRight(65535, 'x')` on `""` gives
`"x"`. -/
theorem pad_wide_widths :
    padLeft [97, 98] 65532 120 = [97, 98, 120, 120] ∧ padRight [] 65535 120 = [120] := by
  decide

end WString
end Sming
