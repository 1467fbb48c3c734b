import Sming.DateTime.PreEpoch

/-!
# Sming.DateTime.Defined

Where the helpers of `DateTime.h` can have undefined behaviour, for every `time_t` on every
target. Six of them never do: their divisors are non-zero constants and their results fit the
type they are computed in. `dayOfWeek` can cast a value outside `dtDays_t`'s range
(`dayOfWeek_eq_none_iff`); `elapsedSecsThisWeek` inherits that and adds nothing of its own,
since its arithmetic is unsigned; and `nextMidnight` overflows exactly where the arithmetic is
signed and the next midnight lies past `time_t`'s maximum.

* `elapsedSecsThisWeek_isSome`: `elapsedSecsThisWeek(t)` is defined exactly when `dayOfWeek(t)`
  is.
* `nextMidnight_eq_none_iff`: when `nextMidnight(t)` is undefined.
* `helpers_defined`: the whole map.
-/

namespace Sming
namespace DateTime

variable {A : Abi}

/-- `elapsedSecsToday(t) + dayOfWeek(t) * SECS_PER_DAY` is computed in `unsigned long`, which
wraps: only `dayOfWeek` can make it undefined. -/
theorem elapsedSecsThisWeek_isSome (t : TimeT A) :
    (elapsedSecsThisWeek t).isSome = (dayOfWeek t).isSome := by
  cases hd : dayOfWeek t with
  | none => simp [elapsedSecsThisWeek, hd]
  | some d =>
    have hw : binop A .mul d.promote ⟨.ulong, 86400⟩ = some ⟨.ulong, _⟩ :=
      binop_of_unsigned (common_ulong A (.inl rfl)) rfl rfl rfl (fun h => absurd h (by decide))
    have hr : ∀ v, binop A .add ⟨.uint, A.convert .uint (t.conv.tmod 86400)⟩ ⟨.ulong, v⟩ =
        some ⟨.ulong, _⟩ := fun v =>
      binop_of_unsigned (common_ulong A (.inr rfl)) rfl rfl rfl (fun h => absurd h (by decide))
    simp [elapsedSecsThisWeek, hd, elapsedSecsToday_eq, secsPerDay_eq, hw, hr]

/-- `previousMidnight(t) + SECS_PER_DAY` is undefined exactly where the arithmetic is signed
(so is `time_t` itself) and the sum passes `time_t`'s maximum. -/
theorem nextMidnight_eq_none_iff (t : TimeT A) :
    nextMidnight t = none ↔
      A.timeArith.signed = true ∧ A.max A.timeT < t.val.tdiv 86400 * 86400 + 86400 := by
  rw [nextMidnight_of_previousMidnight (previousMidnight_eq t)]
  have hb := convert_timeArith_const (A := A) (c := 86400) (by decide) (by decide)
  cases hs : A.timeArith.signed
  case false =>
    have hadd : binop A .add ⟨A.timeT, A.convert A.timeT (t.conv.tdiv 86400 * 86400)⟩
        ⟨.ulong, 86400⟩ = some ⟨A.timeArith, _⟩ :=
      binop_of_unsigned rfl hs rfl hb (fun h => absurd h (by decide))
    simp [hadd]
  case true =>
    have he := timeArith_of_signed A hs
    have hR := inRange_midnight t
    rw [conv_of_signed t hs, he] at hR
    have ha : A.convert A.timeArith (A.convert A.timeT (t.conv.tdiv 86400 * 86400)) =
        t.val.tdiv 86400 * 86400 := by
      rw [he, conv_of_signed t hs, Abi.convert_of_inRange hR, Abi.convert_of_inRange hR]
    by_cases hov : A.max A.timeT < t.val.tdiv 86400 * 86400 + 86400
    · have hadd : binop A .add ⟨A.timeT, A.convert A.timeT (t.conv.tdiv 86400 * 86400)⟩
          ⟨.ulong, 86400⟩ = none :=
        binop_eq_none rfl hs ha hb fun hr => by
          have h2 : t.val.tdiv 86400 * 86400 + 86400 ≤ A.max A.timeArith := hr.2
          rw [he] at h2
          omega
      simp [hadd, hov]
    · have hin : A.InRange A.timeArith (BinOp.add.eval (t.val.tdiv 86400 * 86400) 86400) := by
        show A.InRange A.timeArith (_ + _)
        rw [he]; exact ⟨by have := hR.1; omega, by omega⟩
      have hadd : binop A .add ⟨A.timeT, A.convert A.timeT (t.conv.tdiv 86400 * 86400)⟩
          ⟨.ulong, 86400⟩ = some ⟨A.timeArith, _⟩ :=
        binop_of_inRange rfl ha hb (fun h => absurd h (by decide)) hin
      simp [hadd, hov]

/-- The helpers' undefined behaviour, for every `time_t` on every target: none in six of them,
`elapsedSecsThisWeek`'s exactly `dayOfWeek`'s, and `nextMidnight`'s a signed overflow past
`time_t`'s maximum. -/
theorem helpers_defined (t : TimeT A) :
    (numberOfSeconds t).isSome ∧ (numberOfMinutes t).isSome ∧ (numberOfHours t).isSome ∧
      (elapsedDays t).isSome ∧ (elapsedSecsToday t).isSome ∧ (previousMidnight t).isSome ∧
      (elapsedSecsThisWeek t).isSome = (dayOfWeek t).isSome ∧
      (nextMidnight t = none ↔
        A.timeArith.signed = true ∧ A.max A.timeT < t.val.tdiv 86400 * 86400 + 86400) := by
  refine ⟨?_, ?_, ?_, ?_, ?_, ?_, elapsedSecsThisWeek_isSome t, nextMidnight_eq_none_iff t⟩
  · simp [numberOfSeconds_eq]
  · simp [numberOfMinutes_eq]
  · simp [numberOfHours_eq]
  · simp [elapsedDays_eq]
  · simp [elapsedSecsToday_eq]
  · simp [previousMidnight_eq]

end DateTime
end Sming
