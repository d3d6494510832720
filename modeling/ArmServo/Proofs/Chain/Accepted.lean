import ArmServo.Chain.Jacobian
import ArmServo.Proofs.Effects

/-!
# Accepted entries

What acceptance makes of an entry of a description: if its joint moves, its axis and its limits are
tested and the axis gets length one; nothing else changes.
-/

namespace ArmServo

variable {α : Type} [Scalar α]

namespace Segment

/-- What acceptance makes of an entry of a description. -/
def Accepted (s t : Segment α) : Prop :=
  if s.isActuated then Chain.normalized? s = .ok t else t = s

end Segment

namespace Chain

/-- **What `normalized?` has tested and done.** -/
theorem normalized?_eq_ok {s t : Segment α} (h : normalized? s = .ok t) :
    ¬ s.axis.norm < minimalAxis ∧ Scalar.isFinite s.axis.norm = true ∧ s.limits.isValid = true ∧
      t = { s with axis := s.axis.divide s.axis.norm } := by
  unfold normalized? at h
  dsimp only at h
  by_cases hn : (decide (s.axis.norm < minimalAxis) || !Scalar.isFinite s.axis.norm) = true
  · rw [if_pos hn] at h
    cases h
  · rw [if_neg hn] at h
    rw [Bool.or_eq_true, decide_eq_true_eq, Bool.not_eq_true', not_or, Bool.not_eq_false] at hn
    cases hl : s.limits with
    | free =>
      rw [hl] at h
      cases h
      exact ⟨hn.1, hn.2, rfl, rfl⟩
    | range lower upper =>
      rw [hl] at h
      simp only at h
      split at h
      case isTrue hle =>
        cases h
        exact ⟨hn.1, hn.2, decide_eq_true hle, rfl⟩
      case isFalse => cases h

theorem eq_of_accepted {s t : Segment α} (h : s.Accepted t) : t = { s with axis := t.axis } := by
  unfold Segment.Accepted at h
  split at h
  · obtain ⟨-, -, -, rfl⟩ := normalized?_eq_ok h
    rfl
  · rw [h]

theorem joint_of_accepted {s t : Segment α} (h : s.Accepted t) :
    t.joint = s.joint ∧ t.isActuated = s.isActuated := by
  rw [eq_of_accepted h]
  exact ⟨rfl, rfl⟩

theorem isValid_of_accepted {s t : Segment α} (h : s.Accepted t) (ht : t.isActuated = true) :
    t.limits.isValid = true := by
  unfold Segment.Accepted at h
  by_cases ha : s.isActuated = true
  · rw [if_pos ha] at h
    obtain ⟨-, -, hl, rfl⟩ := normalized?_eq_ok h
    exact hl
  · rw [if_neg ha] at h
    subst h
    exact absurd ht ha

/-- Placing a joint elsewhere changes neither its tests nor what they do. -/
theorem normalized?_origin (s : Segment α) (origin : Pose α) :
    normalized? { s with origin := origin } =
      (normalized? s).map fun t => { t with origin := origin } := by
  unfold normalized?
  dsimp only
  split
  · rfl
  · cases s.limits with
    | free => rfl
    | range lower upper =>
      dsimp only
      split <;> rfl

end Chain

theorem Segment.Accepted.withOrigin {s t : Segment α} (h : s.Accepted t) (origin : Pose α) :
    ({ s with origin := origin } : Segment α).Accepted { t with origin := origin } := by
  unfold Accepted at h ⊢
  by_cases ha : s.isActuated = true
  · have ha' : ({ s with origin := origin } : Segment α).isActuated = true := ha
    rw [if_pos ha] at h
    rw [if_pos ha', Chain.normalized?_origin, h]
    rfl
  · have ha' : ¬ ({ s with origin := origin } : Segment α).isActuated = true := ha
    rw [if_neg ha] at h
    rw [if_neg ha', h]

end ArmServo
