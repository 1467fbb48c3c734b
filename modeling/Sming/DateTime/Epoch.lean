import Sming.DateTime.Helpers

/-!
# Sming.DateTime.Epoch

The helpers on instants from 1970 on. A non-negative `time_t` keeps its value in `timeArith`,
truncating `/` and `%` are floor division there, and every result fits the return type, so
each helper is its floor-division formula on every target (`*_of_nonneg`).

* `helpers_decompose_of_nonneg`: the helpers agree on one decomposition of `t` into midnight,
  hours, minutes, seconds and weekday (`Decomposes`).
* `elapsedDays_of_nonneg`: `elapsedDays` returns the day count modulo `256`, as its `uint8_t`
  return type forces; `elapsedDays_wraps` is the first day where that differs from the count.
-/

namespace Sming
namespace DateTime

variable {A : Abi}

theorem DtDays.ofInt_of_lt {v : Int} (h0 : 0 ≤ v) (h1 : v < 7) :
    ∃ d, DtDays.ofInt v = some d ∧ (d.val.val : Int) = v :=
  ⟨_, dif_pos ⟨h0, by omega⟩, by simp; omega⟩

/-! ### A non-negative converted `time` -/

section ConvNonneg

variable {t : TimeT A} (hc : 0 ≤ t.conv)
include hc

theorem numberOfSeconds_of_conv : numberOfSeconds t = some (t.conv % 60) := by
  rw [numberOfSeconds_eq, Int.tmod_eq_emod hc (by decide),
    Abi.convert_unsigned (t := .uchar) rfl (Int.emod_nonneg _ (by decide)) (by show _ < 256; omega)]

theorem numberOfMinutes_of_conv : numberOfMinutes t = some (t.conv / 60 % 60) := by
  rw [numberOfMinutes_eq, Int.tdiv_eq_ediv hc (by decide),
    Int.tmod_eq_emod (Int.ediv_nonneg hc (by decide)) (by decide),
    Abi.convert_unsigned (t := .uchar) rfl (Int.emod_nonneg _ (by decide)) (by show _ < 256; omega)]

theorem numberOfHours_of_conv : numberOfHours t = some (t.conv % 86400 / 3600) := by
  have hr : 0 ≤ t.conv % 86400 := Int.emod_nonneg _ (by decide)
  rw [numberOfHours_eq, Int.tmod_eq_emod hc (by decide), Int.tdiv_eq_ediv hr (by decide),
    Abi.convert_unsigned (t := .uchar) rfl (Int.ediv_nonneg hr (by decide))
      (by show _ < 256; omega)]

theorem elapsedSecsToday_of_conv : elapsedSecsToday t = some (t.conv % 86400) := by
  rw [elapsedSecsToday_eq, Int.tmod_eq_emod hc (by decide),
    Abi.convert_unsigned (t := .uint) rfl (Int.emod_nonneg _ (by decide))
      (by show _ < 2 ^ 32; omega)]

theorem previousMidnight_of_conv :
    previousMidnight t = some (A.convert A.timeT (t.conv / 86400 * 86400)) := by
  rw [previousMidnight_eq, Int.tdiv_eq_ediv hc (by decide)]

theorem dayOfWeek_of_conv : dayOfWeek t = DtDays.ofInt ((t.conv / 86400 + 4) % 7) := by
  rw [dayOfWeek_eq, Int.tdiv_eq_ediv hc (by decide),
    Int.tmod_eq_emod (by have := Int.ediv_nonneg hc (by decide : (0 : Int) ≤ 86400); omega)
      (by decide)]

theorem elapsedDays_of_conv : elapsedDays t = some (t.conv / 86400 % 256) := by
  rw [elapsedDays_eq, Int.tdiv_eq_ediv hc (by decide)]
  simp [Abi.convert, IntType.convert, IntType.signed, IntType.bits, toUnsigned]

end ConvNonneg

/-! ### Instants from 1970 on -/

section Nonneg

variable {t : TimeT A} (h0 : 0 ≤ t.val)
include h0

theorem conv_of_nonneg : t.conv = t.val := by
  have := A.min_nonpos A.timeArith
  have := timeT_max_le A
  exact Abi.convert_of_inRange ⟨by omega, t.inRange.2.trans this⟩

theorem conv_nonneg_of_nonneg : 0 ≤ t.conv := by rw [conv_of_nonneg h0]; exact h0

theorem numberOfSeconds_of_nonneg : numberOfSeconds t = some (t.val % 60) := by
  rw [numberOfSeconds_of_conv (conv_nonneg_of_nonneg h0), conv_of_nonneg h0]

theorem numberOfMinutes_of_nonneg : numberOfMinutes t = some (t.val / 60 % 60) := by
  rw [numberOfMinutes_of_conv (conv_nonneg_of_nonneg h0), conv_of_nonneg h0]

theorem numberOfHours_of_nonneg : numberOfHours t = some (t.val % 86400 / 3600) := by
  rw [numberOfHours_of_conv (conv_nonneg_of_nonneg h0), conv_of_nonneg h0]

theorem elapsedSecsToday_of_nonneg : elapsedSecsToday t = some (t.val % 86400) := by
  rw [elapsedSecsToday_of_conv (conv_nonneg_of_nonneg h0), conv_of_nonneg h0]

theorem previousMidnight_of_nonneg : previousMidnight t = some (t.val / 86400 * 86400) := by
  have := t.inRange.2
  rw [previousMidnight_of_conv (conv_nonneg_of_nonneg h0), conv_of_nonneg h0,
    Abi.convert_of_le (by omega) (by omega)]

theorem dayOfWeek_of_nonneg : dayOfWeek t = DtDays.ofInt ((t.val / 86400 + 4) % 7) := by
  rw [dayOfWeek_of_conv (conv_nonneg_of_nonneg h0), conv_of_nonneg h0]

theorem elapsedDays_of_nonneg : elapsedDays t = some (t.val / 86400 % 256) := by
  rw [elapsedDays_of_conv (conv_nonneg_of_nonneg h0), conv_of_nonneg h0]

theorem nextMidnight_of_nonneg (h : t.val / 86400 * 86400 + 86400 ≤ A.max A.timeT) :
    nextMidnight t = some (t.val / 86400 * 86400 + 86400) := by
  have := timeT_max_le A
  have hadd : binop A .add ⟨A.timeT, t.val / 86400 * 86400⟩ ⟨.ulong, 86400⟩ =
      some ⟨A.timeArith, t.val / 86400 * 86400 + 86400⟩ :=
    binop_of_le rfl (by omega) (by omega) (by decide) (by omega) (by decide) rfl (by omega)
      (by omega)
  rw [nextMidnight_of_previousMidnight (previousMidnight_of_nonneg h0), hadd, Option.map_some',
    Abi.convert_of_le (by omega) h]

theorem elapsedSecsThisWeek_of_nonneg :
    elapsedSecsThisWeek t = some (t.val % 86400 + 86400 * ((t.val / 86400 + 4) % 7)) := by
  obtain ⟨d, hd, hdv⟩ := DtDays.ofInt_of_lt (v := (t.val / 86400 + 4) % 7) (by omega) (by omega)
  have hu := (ulong_bounds A).2
  have hw : binop A .mul d.promote ⟨.ulong, 86400⟩ = some ⟨.ulong, d.val.val * 86400⟩ :=
    binop_of_le (common_ulong A (.inl rfl)) (by omega) (by omega) (by decide) (by omega)
      (by decide) rfl (by omega) (by omega)
  have hs : binop A .add ⟨.uint, t.val % 86400⟩ ⟨.ulong, d.val.val * 86400⟩ =
      some ⟨.ulong, t.val % 86400 + d.val.val * 86400⟩ :=
    binop_of_le (common_ulong A (.inr rfl)) (by omega) (by omega) (by omega) (by omega)
      (fun h => absurd h (by decide)) rfl (by omega) (by omega)
  simp only [elapsedSecsThisWeek, elapsedSecsToday_of_nonneg h0, dayOfWeek_of_nonneg h0, hd,
    secsPerDay_eq, hw, hs, Option.bind_eq_bind, Option.some_bind, Option.pure_def]
  rw [Abi.convert_unsigned (t := .uint) rfl (by omega) (by show _ < 2 ^ 32; omega)]
  congr 1
  omega

end Nonneg

/-- The helpers agree on one decomposition of `t`: the midnight starting its day, the seconds
elapsed since then as hours, minutes and seconds, and the weekday counted from Sunday
1970-01-04 (`259200`); `nextMidnight` is the following midnight wherever `time_t` holds it. -/
def Decomposes (t : TimeT A) : Prop :=
  ∃ (pm today hh mm ss week : Int) (d : DtDays),
    previousMidnight t = some pm ∧ elapsedSecsToday t = some today ∧
    numberOfHours t = some hh ∧ numberOfMinutes t = some mm ∧ numberOfSeconds t = some ss ∧
    dayOfWeek t = some d ∧ elapsedSecsThisWeek t = some week ∧
    86400 ∣ pm ∧ pm + today = t.val ∧ today < 86400 ∧
    today = 3600 * hh + 60 * mm + ss ∧ hh < 24 ∧ mm < 60 ∧ ss < 60 ∧
    d.val.val < 7 ∧ week = today + 86400 * d.val.val ∧ week < 604800 ∧
    (t.val - week) % 604800 = 259200 ∧
    (pm + 86400 ≤ A.max A.timeT → nextMidnight t = some (pm + 86400) ∧ t.val < pm + 86400)

theorem helpers_decompose_of_nonneg (t : TimeT A) (h0 : 0 ≤ t.val) : Decomposes t := by
  obtain ⟨d, hd, hdv⟩ := DtDays.ofInt_of_lt (v := (t.val / 86400 + 4) % 7) (by omega) (by omega)
  refine ⟨_, _, _, _, _, _, d, previousMidnight_of_nonneg h0, elapsedSecsToday_of_nonneg h0,
    numberOfHours_of_nonneg h0, numberOfMinutes_of_nonneg h0, numberOfSeconds_of_nonneg h0,
    (dayOfWeek_of_nonneg h0).trans hd, elapsedSecsThisWeek_of_nonneg h0,
    Int.dvd_mul_left _ _, by omega, by omega, by omega, by omega, by omega, by omega, by omega,
    by omega, by omega, by omega, fun h => ⟨nextMidnight_of_nonneg h0 h, by omega⟩⟩

/-- 2023-11-14 22:13:20 UTC on the ESP8266. -/
theorem helpers_decompose_1700000000 :
    (0 : Int) ≤ (⟨1700000000, by decide⟩ : TimeT Abi.ilp32).val ∧
      Decomposes (⟨1700000000, by decide⟩ : TimeT Abi.ilp32) :=
  ⟨by decide, helpers_decompose_of_nonneg _ (by decide)⟩

/-- On every target, at 1970-09-13 00:00 (`256 * 86400`) 256 days have elapsed and
`previousMidnight` is `256 * 86400`, but `elapsedDays` returns `0`. -/
theorem elapsedDays_wraps (A : Abi) :
    ∃ t : TimeT A, t.val = 256 * 86400 ∧ elapsedDays t = some 0 ∧
      previousMidnight t = some (256 * 86400) := by
  have := A.min_nonpos A.timeT
  have hmax : 2 ^ 31 - 1 ≤ A.max A.timeT :=
    Abi.forall_of (P := fun n t => 2 ^ 31 - 1 ≤ IntType.max n t) (by decide) A
  let t : TimeT A := ⟨256 * 86400, by omega, by omega⟩
  have h0 : 0 ≤ t.val := show (0 : Int) ≤ 256 * 86400 by decide
  exact ⟨t, rfl, elapsedDays_of_nonneg h0, previousMidnight_of_nonneg h0⟩

end DateTime
end Sming
