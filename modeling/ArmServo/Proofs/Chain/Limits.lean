import ArmServo.Chain.Segment
import ArmServo.Proofs.Scalar.Order

/-!
# Positions within limits

A free joint has limits too, at infinity, so that all limits are a lower and an upper end. What comes
out of a clamp lies between them unless it is not a number.

Main statement: `Limits.admits_of_clamp?`.
-/

namespace ArmServo

open Binary64

namespace Limits

/-- The lower end, at minus infinity for a free joint. -/
def lower : Limits Float → Float
  | free => -infinity
  | range lower _ => lower

/-- The upper end, at infinity for a free joint. -/
def upper : Limits Float → Float
  | free => infinity
  | range _ upper => upper

/-- The position lies within the limits, ends included, if it is a number at all. -/
def Admits (l : Limits Float) (x : Float) : Prop := x.isNaN = false → l.lower ≤ x ∧ x ≤ l.upper

theorem isValid_iff {l : Limits Float} : l.isValid = true ↔ l.lower ≤ l.upper := by
  cases l with
  | free => exact ⟨fun _ => le_infinity rfl, fun _ => rfl⟩
  | range lower upper => exact decide_eq_true_iff

/-- What a clamp does: it moves a position to the end it has passed, or leaves it. -/
theorem clamp?_cases {l : Limits Float} {x y : Float} (h : l.clamp? x = some y) :
    l.lower ≤ l.upper ∧ (x < l.lower ∧ y = l.lower ∨
      ¬ x < l.lower ∧ l.upper < x ∧ y = l.upper ∨ ¬ x < l.lower ∧ ¬ l.upper < x ∧ y = x) := by
  cases l with
  | free =>
    cases h
    exact ⟨le_infinity rfl, .inr (.inr ⟨not_lt_neg_infinity x, not_infinity_lt x, rfl⟩)⟩
  | range lower upper =>
    change clampBetween? lower upper x = some y at h
    show lower ≤ upper ∧ (x < lower ∧ y = lower ∨ ¬ x < lower ∧ upper < x ∧ y = upper ∨
      ¬ x < lower ∧ ¬ upper < x ∧ y = x)
    unfold clampBetween? at h
    split at h
    case isFalse => cases h
    case isTrue hle =>
      cases h
      refine ⟨hle, ?_⟩
      by_cases hlower : x < lower
      · rw [if_pos hlower, if_neg (not_lt_of_le hle)]
        exact .inl ⟨hlower, rfl⟩
      · rw [if_neg hlower]
        by_cases hupper : upper < x
        · rw [if_pos hupper]
          exact .inr (.inl ⟨hlower, hupper, rfl⟩)
        · rw [if_neg hupper]
          exact .inr (.inr ⟨hlower, hupper, rfl⟩)

theorem admits_of_clamp? {l : Limits Float} {x y : Float} (h : l.clamp? x = some y) :
    l.Admits y := by
  intro hy
  obtain ⟨hle, ⟨-, rfl⟩ | ⟨-, -, rfl⟩ | ⟨hlower, hupper, rfl⟩⟩ := clamp?_cases h
  · exact ⟨le_self hy, hle⟩
  · exact ⟨hle, le_self hy⟩
  · obtain ⟨hl, hu⟩ := isNaN_of_le hle
    exact ⟨le_of_not_lt hy hl hlower, le_of_not_lt hu hy hupper⟩

end Limits

end ArmServo
