import Mathlib
import ArmServo.Proofs.Scalar.Magnitude
import ArmServo.Proofs.Scalar.Real

/-!
# Time in seconds

A period is a whole number of nanoseconds, and what is computed with it are its seconds. These are
above zero for every period that is not zero, so that a test of the seconds is one of the period.
-/

namespace ArmServo

theorem Period.seconds_pos {p : Period} (hp : p.isZero = false) : 0 < (p.seconds : ℝ) := by
  have hnanos : p.wholeSeconds * nanosPerSecond + p.restNanos = p.nanos :=
    Nat.div_add_mod' p.nanos nanosPerSecond
  unfold isZero at hp
  rw [beq_eq_false_iff_ne, ← Nat.pos_iff_ne_zero, ← hnanos] at hp
  unfold seconds
  simp only [Scalar.ofNat_real]
  rcases Nat.eq_zero_or_pos p.wholeSeconds with hwhole | hwhole
  · rw [hwhole, Nat.zero_mul, Nat.zero_add] at hp
    unfold nanosPerSecond
    positivity
  · have hrest : (0 : ℝ) ≤ p.restNanos / nanosPerSecond := by positivity
    have : (0 : ℝ) < p.wholeSeconds := by exact_mod_cast hwhole
    linarith

/-- Scalars in which exactly the period of zero nanoseconds takes no time. -/
class TellsTime (α : Type) [Scalar α] : Prop where
  seconds_le_zero_iff (p : Period) : (p.seconds : α) ≤ 0 ↔ p.isZero = true

theorem Period.eq_zero_of_isZero {p : Period} (hp : p.isZero = true) : p = .zero := by
  obtain ⟨nanos⟩ := p
  cases beq_iff_eq.mp hp
  rfl

instance : TellsTime Float where
  seconds_le_zero_iff p := by
    cases hp : p.isZero with
    | true =>
      cases Period.eq_zero_of_isZero hp
      exact iff_of_true (by decide +kernel) rfl
    | false =>
      have hpos := Binary64.seconds_pos hp
      exact iff_of_false (fun h => Binary64.not_lt_of_le h hpos) Bool.false_ne_true

instance : TellsTime ℝ where
  seconds_le_zero_iff p := by
    cases hp : p.isZero with
    | true =>
      cases Period.eq_zero_of_isZero hp
      refine iff_of_true (le_of_eq ?_) rfl
      simp [Period.seconds, Period.wholeSeconds, Period.restNanos, Period.zero]
    | false => exact iff_of_false (not_le.mpr (Period.seconds_pos hp)) Bool.false_ne_true

end ArmServo
