import Sming.DateTime.PreEpoch

/-!
# Sming.DateTime.Midnight

`previousMidnight` composed with the other helpers. Before 1970 the helpers do not floor-divide
(`Sming.DateTime.PreEpoch`), but they stay consistent with each other: on every target and for
every `time_t`, negative ones included, `previousMidnight(t)` is a midnight by the helpers' own
reckoning (`MidnightOf`). Its time of day is zero, it has `t`'s `elapsedDays` and `dayOfWeek`,
and it is its own `previousMidnight`.

The exception is a `time_t` narrower than the type the helpers compute in (a 32-bit `time_t`
beside a 64-bit `unsigned long`), within a day of `time_t`'s minimum: there the midnight computed
in the wider type does not fit `time_t` and wraps to the other end of its range.

* `conv_previousMidnight`: `previousMidnight(t)`, converted back to `timeArith`, is the product
  `(t / SECS_PER_DAY) * SECS_PER_DAY` computed there.
* `previousMidnight_midnight`: `previousMidnight(t)` is the midnight of `t`'s day.
-/

namespace Sming
namespace DateTime

variable {A : Abi}

/-- Converted to `time_t` and back, the midnight `(t / SECS_PER_DAY) * SECS_PER_DAY` computed in
`timeArith` is itself, unless a narrower `time_t` cannot hold it. -/
theorem conv_previousMidnight (t : TimeT A)
    (h : A.bits A.timeT = A.bits A.timeArith ∨ A.min A.timeT + 86400 ≤ t.val) :
    A.convert A.timeArith (A.convert A.timeT (t.conv.tdiv 86400 * 86400)) =
      t.conv.tdiv 86400 * 86400 := by
  have hR := inRange_midnight t
  cases hs : A.timeArith.signed
  case true =>
    rw [timeArith_of_signed A hs] at hR ⊢
    rw [Abi.convert_of_inRange hR, Abi.convert_of_inRange hR]
  case false =>
    refine Abi.convert_eq_of_dvd hR ?_
    rcases h with h | h
    · exact h ▸ Abi.dvd_convert_sub _ _
    have hc0 := conv_nonneg_of_unsigned t hs
    have hmm := A.min_nonpos A.timeT
    rw [Int.tdiv_eq_ediv hc0 (by decide)]
    by_cases h0 : 0 ≤ t.val
    · have ht := t.inRange.2
      rw [conv_of_nonneg h0, Abi.convert_of_le (by omega) (by omega), Int.sub_self]
      exact dvd_zero _
    · have hu := conv_of_unsigned hs (by omega : t.val < 0)
      have hwrap : A.convert A.timeT (t.conv / 86400 * 86400) =
          t.conv / 86400 * 86400 - 2 ^ A.bits A.timeArith :=
        Abi.convert_eq_of_dvd ⟨by omega, by omega⟩
          (by rw [sub_sub_cancel]; exact pow_dvd_pow 2 (timeT_bits_le A))
      rw [hwrap, sub_sub_cancel_left]
      exact Int.dvd_neg.2 (dvd_refl _)

/-- `p` is the midnight starting `t`'s day, by the helpers' own reckoning: its time of day is
zero, it has `t`'s day count and weekday, and it is its own `previousMidnight`. -/
def MidnightOf (t p : TimeT A) : Prop :=
  numberOfSeconds p = some 0 ∧ numberOfMinutes p = some 0 ∧ numberOfHours p = some 0 ∧
    elapsedSecsToday p = some 0 ∧ elapsedDays p = elapsedDays t ∧ dayOfWeek p = dayOfWeek t ∧
    previousMidnight p = some p.val

/-- A `time_t` that reads as day `q` times `SECS_PER_DAY` in `timeArith` is the midnight of
every instant of day `q`. -/
theorem midnightOf_of_conv {t p : TimeT A} {q : Int} (hq : t.conv.tdiv 86400 = q)
    (hc : p.conv = q * 86400) (hp : p.val = A.convert A.timeT (q * 86400)) :
    MidnightOf t p := by
  have h60 : q * 86400 = q * 1440 * 60 := by omega
  have h1440 : q * 1440 = q * 24 * 60 := by omega
  have hd : (q * 86400).tdiv 86400 = q := Int.mul_tdiv_cancel q (by decide)
  refine ⟨?_, ?_, ?_, ?_, ?_, ?_, ?_⟩
  · rw [numberOfSeconds_eq, hc, h60, Int.mul_tmod_left, Abi.convert_zero]
  · rw [numberOfMinutes_eq, hc, h60, Int.mul_tdiv_cancel _ (by decide), h1440,
      Int.mul_tmod_left, Abi.convert_zero]
  · rw [numberOfHours_eq, hc, Int.mul_tmod_left, Int.zero_tdiv, Abi.convert_zero]
  · rw [elapsedSecsToday_eq, hc, Int.mul_tmod_left, Abi.convert_zero]
  · rw [elapsedDays_eq, elapsedDays_eq, hc, hd, hq]
  · rw [dayOfWeek_eq, dayOfWeek_eq, hc, hd, hq]
  · rw [previousMidnight_eq, hc, hd, hp]

/-- On every target, `previousMidnight(t)` is the midnight of `t`'s day by the helpers' own
reckoning, for every `t` but those within a day of the minimum of a `time_t` narrower than
`timeArith`. -/
theorem previousMidnight_midnight (t : TimeT A)
    (h : A.bits A.timeT = A.bits A.timeArith ∨ A.min A.timeT + 86400 ≤ t.val) :
    ∃ p : TimeT A, previousMidnight t = some p.val ∧ MidnightOf t p :=
  ⟨⟨_, Abi.convert_inRange A.timeT (t.conv.tdiv 86400 * 86400)⟩, previousMidnight_eq t,
    midnightOf_of_conv rfl (conv_previousMidnight t h) rfl⟩

/-- One second before 1970 on a 64-bit host, where `previousMidnight(-1)` is `-25216`. -/
theorem previousMidnight_midnight_minus_one :
    (Abi.lp64.bits Abi.lp64.timeT = Abi.lp64.bits Abi.lp64.timeArith ∨
      Abi.lp64.min Abi.lp64.timeT + 86400 ≤ (⟨-1, by decide⟩ : TimeT Abi.lp64).val) ∧
      ∃ p : TimeT Abi.lp64,
        previousMidnight (⟨-1, by decide⟩ : TimeT Abi.lp64) = some p.val ∧
          MidnightOf ⟨-1, by decide⟩ p :=
  ⟨.inl (by decide), previousMidnight_midnight _ (.inl (by decide))⟩

/-- The exception: with a 32-bit `time_t` beside a 64-bit `long`, the midnight of `time_t`'s
minimum wraps to a day of 2038 that is not its own midnight. -/
example : previousMidnight (⟨-2 ^ 31, by decide⟩ : TimeT ⟨64, .int, .inr rfl, .inl rfl⟩) =
      some 2147470080 ∧
    previousMidnight (⟨2147470080, by decide⟩ : TimeT ⟨64, .int, .inr rfl, .inl rfl⟩) =
      some 2147385600 := by
  decide

end DateTime
end Sming
