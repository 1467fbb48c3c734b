import Sming.DateTime.Epoch

/-!
# Sming.DateTime.PreEpoch

The helpers on instants before 1970. `time_t` is signed, but the helpers compute with C++'s `/`
and `%` after the usual arithmetic conversions with `unsigned long` constants, so they do not
use floor division on a negative `time`:

* where `timeArith` is unsigned (`time_t` of `long`'s rank or below, or a 64-bit `long`), `time`
  becomes `time + 2 ^ N` and the helpers decompose that value, an instant far in the future;
* where it is signed (a 64-bit `long long` `time_t` over a 32-bit `long`, as on the ESP8266),
  `/` and `%` truncate toward zero: `previousMidnight` is the midnight that ends `time`'s day,
  the narrowed remainders are negative numbers taken modulo `256`, and `dayOfWeek` casts a
  negative value to `dtDays_t` on most days, which is undefined.

`BeforeEpoch` states both cases; `helpers_before_epoch` proves it for every negative `time_t`.
`helpers_minus_one` shows what that means one second before 1970, against the floor-division
values the doc comments describe. `dayOfWeek_weekday` says exactly when `dayOfWeek` is
undefined, and that it is a weekday everywhere else.
-/

namespace Sming
namespace DateTime

variable {A : Abi}

theorem uchar_convert_eq (v : Int) : A.convert .uchar v = v % 256 := by
  simp [Abi.convert, IntType.convert, IntType.signed, IntType.bits, toUnsigned]

/-- `time_t`'s negative values lie within `2 ^ N` of `0`, `N` the width of `timeArith`. -/
theorem timeT_min_ge : -2 ^ A.bits A.timeArith ≤ A.min A.timeT :=
  Abi.forall_of (P := fun n t => -2 ^ IntType.bits n (IntType.common n t .ulong) ≤
    IntType.min n t) (by decide) A

theorem conv_of_unsigned {t : TimeT A} (hs : A.timeArith.signed = false) (hneg : t.val < 0) :
    t.conv = t.val + 2 ^ A.bits A.timeArith := by
  have := timeT_min_ge (A := A)
  have := t.inRange.1
  obtain ⟨hp, hpos⟩ := A.two_pow_bits A.timeArith
  unfold TimeT.conv Abi.convert IntType.convert toUnsigned
  rw [hs, if_neg Bool.false_ne_true, ← Int.add_emod_self, Int.emod_eq_of_lt] <;>
    unfold Abi.bits at * <;> omega

theorem conv_of_signed (t : TimeT A) (hs : A.timeArith.signed = true) : t.conv = t.val := by
  unfold TimeT.conv
  rw [timeArith_of_signed A hs]
  exact Abi.convert_of_inRange t.inRange

/-- What the helpers compute for a negative `t`, on either kind of target. -/
def BeforeEpoch (t : TimeT A) : Prop :=
  (A.timeArith.signed = false →
    t.conv = t.val + 2 ^ A.bits A.timeArith ∧
    numberOfSeconds t = some (t.conv % 60) ∧ numberOfMinutes t = some (t.conv / 60 % 60) ∧
    numberOfHours t = some (t.conv % 86400 / 3600) ∧
    (dayOfWeek t).map (fun d => (d.val.val : Int)) = some ((t.conv / 86400 + 4) % 7) ∧
    previousMidnight t = some (A.convert A.timeT (t.conv / 86400 * 86400))) ∧
  (A.timeArith.signed = true →
    numberOfSeconds t = some (t.val.tmod 60 % 256) ∧
    numberOfMinutes t = some ((t.val.tdiv 60).tmod 60 % 256) ∧
    numberOfHours t = some ((t.val.tmod 86400).tdiv 3600 % 256) ∧
    previousMidnight t = some (t.val.tdiv 86400 * 86400) ∧
    t.val ≤ t.val.tdiv 86400 * 86400 ∧ t.val.tdiv 86400 * 86400 < t.val + 86400 ∧
    (dayOfWeek t).map (fun d => (d.val.val : Int)) =
      if 0 ≤ (t.val.tdiv 86400 + 4).tmod 7 then some ((t.val.tdiv 86400 + 4).tmod 7) else none)

theorem DtDays.ofInt_map (v : Int) :
    (DtDays.ofInt v).map (fun d => (d.val.val : Int)) =
      if 0 ≤ v ∧ v < 8 then some v else none := by
  unfold DtDays.ofInt
  split <;> simp_all [Int.toNat_of_nonneg]

theorem conv_nonneg_of_unsigned (t : TimeT A) (hs : A.timeArith.signed = false) :
    0 ≤ t.conv := by
  have := t.conv_inRange.1
  simpa [Abi.min, IntType.min, hs] using this

theorem helpers_before_epoch (t : TimeT A) (hneg : t.val < 0) : BeforeEpoch t := by
  constructor
  · intro hs
    have hc := conv_nonneg_of_unsigned t hs
    refine ⟨conv_of_unsigned hs hneg, numberOfSeconds_of_conv hc, numberOfMinutes_of_conv hc,
      numberOfHours_of_conv hc, ?_, previousMidnight_of_conv hc⟩
    rw [dayOfWeek_of_conv hc, DtDays.ofInt_map, if_pos (by omega)]
  · intro hs
    have hq := tdiv_of_pos t.val (by decide : (0 : Int) < 86400)
    rw [if_neg (by omega)] at hq
    have hpm : A.convert A.timeT (t.val.tdiv 86400 * 86400) = t.val.tdiv 86400 * 86400 :=
      Abi.convert_of_inRange (Abi.inRange_of_between t.inRange (by omega))
    have h7 := Int.tmod_lt_of_pos (t.val.tdiv 86400 + 4) (by decide : (0 : Int) < 7)
    refine ⟨?_, ?_, ?_, ?_, by omega, by omega, ?_⟩
    · rw [numberOfSeconds_eq, conv_of_signed t hs, uchar_convert_eq]
    · rw [numberOfMinutes_eq, conv_of_signed t hs, uchar_convert_eq]
    · rw [numberOfHours_eq, conv_of_signed t hs, uchar_convert_eq]
    · rw [previousMidnight_eq, conv_of_signed t hs, hpm]
    · rw [dayOfWeek_eq, conv_of_signed t hs, DtDays.ofInt_map]
      by_cases h : 0 ≤ (t.val.tdiv 86400 + 4).tmod 7
      · rw [if_pos ⟨h, by omega⟩, if_pos h]
      · rw [if_neg (by omega), if_neg h]

/-- One second before 1970 on the ESP8266. -/
theorem helpers_before_epoch_minus_one :
    (⟨-1, by decide⟩ : TimeT Abi.ilp32).val < 0 ∧
      BeforeEpoch (⟨-1, by decide⟩ : TimeT Abi.ilp32) :=
  ⟨by decide, helpers_before_epoch _ (by decide)⟩

/-- One second before 1970 (1969-12-31 23:59:59, a Wednesday): floor division gives `59`
seconds, the midnight `-86400` and `dtWednesday`. A 64-bit host decomposes `2 ^ 64 - 1`
instead; the ESP8266 truncates, giving `255` seconds, the midnight `0` after `-1`, and
`dtThursday`. -/
theorem helpers_minus_one :
    numberOfSeconds (⟨-1, by decide⟩ : TimeT Abi.lp64) = some 15 ∧
    previousMidnight (⟨-1, by decide⟩ : TimeT Abi.lp64) = some (-25216) ∧
    dayOfWeek (⟨-1, by decide⟩ : TimeT Abi.lp64) = some DtDays.dtThursday ∧
    numberOfSeconds (⟨-1, by decide⟩ : TimeT Abi.ilp32) = some 255 ∧
    previousMidnight (⟨-1, by decide⟩ : TimeT Abi.ilp32) = some 0 ∧
    dayOfWeek (⟨-1, by decide⟩ : TimeT Abi.ilp32) = some DtDays.dtThursday := by
  decide

/-- `dayOfWeek` is undefined exactly on a signed-arithmetic target, for a `time` whose
truncated day number plus four leaves a negative remainder modulo seven. -/
theorem dayOfWeek_eq_none_iff (t : TimeT A) :
    dayOfWeek t = none ↔
      A.timeArith.signed = true ∧ (t.val.tdiv 86400 + 4).tmod 7 < 0 := by
  rw [← Option.map_eq_none' (f := fun d : DtDays => (d.val.val : Int)), dayOfWeek_eq,
    DtDays.ofInt_map]
  have h7 := Int.tmod_lt_of_pos (t.conv.tdiv 86400 + 4) (by decide : (0 : Int) < 7)
  cases hs : A.timeArith.signed
  · have hc := conv_nonneg_of_unsigned t hs
    have hq := Int.tdiv_nonneg hc (by decide : (0 : Int) ≤ 86400)
    have := Int.tmod_nonneg 7 (by omega : 0 ≤ t.conv.tdiv 86400 + 4)
    rw [if_pos ⟨this, by omega⟩]
    simp
  · rw [conv_of_signed t hs] at h7 ⊢
    split <;> simp <;> omega

/-- `dayOfWeek(t)` is undefined exactly where `dayOfWeek_eq_none_iff` says, and everywhere else
it is one of the seven weekdays `dtSunday` to `dtSaturday`, never `dtDays_t(7)`. -/
theorem dayOfWeek_weekday (t : TimeT A) :
    (dayOfWeek t = none ↔ A.timeArith.signed = true ∧ (t.val.tdiv 86400 + 4).tmod 7 < 0) ∧
      ∀ d, dayOfWeek t = some d → d.val.val < 7 := by
  refine ⟨dayOfWeek_eq_none_iff t, fun d hd => ?_⟩
  have h7 := Int.tmod_lt_of_pos (t.conv.tdiv 86400 + 4) (by decide : (0 : Int) < 7)
  have hm := DtDays.ofInt_map ((t.conv.tdiv 86400 + 4).tmod 7)
  rw [← dayOfWeek_eq, hd, Option.map_some'] at hm
  split at hm
  · have := Option.some.inj hm
    omega
  · cases hm

/-- 1969-12-27 on the ESP8266: `(-5 + 4) % 7` is `-1`. -/
example : dayOfWeek (⟨-5 * 86400, by decide⟩ : TimeT Abi.ilp32) = none := by decide

end DateTime
end Sming
