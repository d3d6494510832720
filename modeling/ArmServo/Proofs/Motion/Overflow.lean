import Mathlib
import ArmServo.Proofs.Chain.Limits
import ArmServo.Proofs.Motion.Joints
import ArmServo.Proofs.Scalar.Finite
import ArmServo.Proofs.Scalar.Value

/-!
# Motion that leaves the range of doubles

A joint is commanded a finite value unless it is stopped at an end of its limits that is infinite, or
a sum, a product or a quotient on the way leaves the range of doubles where no limit makes up for it.
The conditions are on the limits, the old position, the joint velocity and the duration of the step,
and they are exact. Positions between finite ends are only lost to what is not a number.

Main statements: `Limits.overflows_position_iff`, `Solver.isFinite_pick_iff`,
`Solver.Steps.isFinite_commands_iff`.
-/

namespace ArmServo

open Binary64

namespace Limits

/-- Some finite position lies within the limits. -/
def HasRoom (l : Limits Float) : Prop := ∃ x : Float, x.isFinite = true ∧ l.lower ≤ x ∧ x ≤ l.upper

theorem not_isFinite_of_admits {l : Limits Float} (hl : ¬ l.HasRoom) {x : Float}
    (h : l.Admits x) : x.isFinite = false := by
  rw [← Bool.not_eq_true]
  exact fun hx => hl ⟨x, hx, h (isNaN_of_isFinite hx)⟩

/-- One joint that is moved for `dt` seconds leaves the range of doubles. If an end of its limits stops
it, that end is what is not finite, or the velocity that leads there; if none does, it is the new
position or, where velocities are written, the joint velocity. -/
def Overflows (l : Limits Float) (kind : CommandKind) (dt q u : Float) : Prop :=
  if q + u * dt < l.lower then (kind.pick l.lower ((l.lower - q) / dt)).isFinite = false
  else if l.upper < q + u * dt then (kind.pick l.upper ((l.upper - q) / dt)).isFinite = false
  else (q + u * dt).isNaN = true ∨ (kind.pick (q + u * dt) u).isFinite = false

/-- Between finite ends a position is lost only if it is not a number. -/
theorem overflows_position_iff {l : Limits Float} (hlower : l.lower.isFinite = true)
    (hupper : l.upper.isFinite = true) {dt q u : Float} :
    l.Overflows .position dt q u ↔ (q + u * dt).isNaN = true := by
  unfold Overflows
  generalize q + u * dt = x
  split
  case isTrue h =>
    refine iff_of_false (fun hl => Bool.false_ne_true (hl.symm.trans hlower)) ?_
    rw [Bool.not_eq_true]
    exact (isNaN_of_lt h).1
  case isFalse hl =>
    split
    case isTrue h =>
      refine iff_of_false (fun hu => Bool.false_ne_true (hu.symm.trans hupper)) ?_
      rw [Bool.not_eq_true]
      exact (isNaN_of_lt h).2
    case isFalse hu =>
      refine or_iff_left_of_imp fun hx => ?_
      change x.isFinite = false at hx
      rw [← Bool.not_eq_false]
      intro hnumber
      -- a number that neither end stops lies between them
      have hx' : x.isFinite = true := isFinite_of_le_of_le
        (le_of_not_lt hnumber (isNaN_of_isFinite hlower) hl)
        (le_of_not_lt (isNaN_of_isFinite hupper) hnumber hu) hlower hupper
      exact Bool.false_ne_true (hx.symm.trans hx')

end Limits

namespace Solver

/-- **What one joint is commanded is finite unless the joint overflows.** -/
theorem isFinite_pick_iff {l : Limits Float} {kind : CommandKind} {dt q u x v : Float}
    (h : moveJoint? l dt q u = some (x, v)) :
    (kind.pick x v).isFinite = true ↔ ¬ l.Overflows kind dt q u := by
  obtain ⟨hc, rfl⟩ := moveJoint?_eq_some.mp h
  unfold Limits.Overflows
  obtain ⟨-, ⟨hl, rfl⟩ | ⟨hl, hu, rfl⟩ | ⟨hl, hu, rfl⟩⟩ := Limits.clamp?_cases hc
  · rw [if_pos hl, beq_eq_false_of_gt hl, if_neg Bool.false_ne_true, Bool.not_eq_false]
  · rw [if_neg hl, if_pos hu, beq_eq_false_of_lt hu, if_neg Bool.false_ne_true, Bool.not_eq_false]
  · rw [if_neg hl, if_neg hu, beq_self]
    cases hx : (q + u * dt).isNaN with
    | false => simp
    | true =>
      -- what is not a number is lost, and so is the velocity that leads there
      refine iff_of_false (fun hfinite => ?_) (not_not_intro (.inl rfl))
      have hnumber : (q + u * dt).isNaN = false := isNaN_of_isFinite <| by
        cases kind with
        | position => exact hfinite
        | velocity => exact isFinite_of_sub_div hfinite
      rw [hx] at hnumber
      cases hnumber

theorem Moves.isFinite_commands_iff {dt : Float} {ls : List (Limits Float)} {qs us : List Float}
    {m : Motion Float} (hm : Moves dt ls qs us m) (kind : CommandKind) :
    (∀ x ∈ m.commands kind, x.isFinite = true) ↔
      ∀ joint ∈ ls.zip (qs.zip us), ¬ joint.1.Overflows kind dt joint.2.1 joint.2.2 := by
  induction hm with
  | nil =>
    refine ⟨fun _ joint h => (List.not_mem_nil h).elim, fun _ x hx => ?_⟩
    cases kind <;> cases hx
  | cons hjoint _ ih =>
    rw [Motion.commands_cons, List.zip_cons_cons, List.zip_cons_cons, List.forall_mem_cons,
      List.forall_mem_cons, isFinite_pick_iff hjoint, ih]

/-- A step of the solver leaves the range of doubles with one of the joints. -/
def Overflows (s : Solver Float) (kind : CommandKind) (period : Period) (velocity : Axes Float)
    (solve : TaskSpace.Method Float) : Prop :=
  ∃ columns, s.chain.jacobian? s.motion.positions s.jacobian = .ok columns ∧
    ∃ joint ∈ s.limits.zip (s.motion.positions.zip
        (columns.map (·.dot (solve columns s.damping velocity)))),
      joint.1.Overflows kind period.seconds joint.2.1 joint.2.2

/-- A joint is to be moved by what is not a number. -/
def GoesNowhere (s : Solver Float) (period : Period) (velocity : Axes Float)
    (solve : TaskSpace.Method Float) : Prop :=
  ∃ columns, s.chain.jacobian? s.motion.positions s.jacobian = .ok columns ∧
    ∃ column ∈ columns,
      (column.dot (solve columns s.damping velocity) * (period.seconds : Float)).isNaN = true

/-- From finite positions and between finite ends nothing else loses a position. -/
theorem Overflows.goesNowhere {s : Solver Float} {period : Period} {velocity : Axes Float}
    {solve : TaskSpace.Method Float} (h : s.Overflows .position period velocity solve)
    (hlimits : ∀ l ∈ s.limits, l.lower.isFinite = true ∧ l.upper.isFinite = true)
    (hfinite : ∀ q ∈ s.motion.positions, q.isFinite = true) :
    s.GoesNowhere period velocity solve := by
  obtain ⟨columns, hj, ⟨l, q, u⟩, hjoint, hover⟩ := h
  obtain ⟨hl, hqu⟩ := List.of_mem_zip hjoint
  obtain ⟨hq, hu⟩ := List.of_mem_zip hqu
  obtain ⟨column, hcolumn, rfl⟩ := List.mem_map.mp hu
  rw [Limits.overflows_position_iff (hlimits l hl).1 (hlimits l hl).2] at hover
  refine ⟨columns, hj, column, hcolumn, ?_⟩
  rw [← Bool.not_eq_false]
  exact fun hnumber => Bool.false_ne_true ((isNaN_add (hfinite q hq) hnumber).symm.trans hover)

/-- **What all joints are commanded after a step is finite unless the step overflows.** -/
theorem Steps.isFinite_commands_iff {s t : Solver Float} {period : Period} {velocity : Axes Float}
    {solve : TaskSpace.Method Float} (h : s.Steps period velocity solve (.ok ()) t) (hs : s.Shaped)
    (kind : CommandKind) :
    (∀ x ∈ t.motion.commands kind, x.isFinite = true) ↔
      ¬ s.Overflows kind period velocity solve := by
  cases h with
  | @moved columns m _ hj hm =>
    refine ((hs.moves hj hm).isFinite_commands_iff kind).trans ⟨?_, ?_⟩
    · rintro hnone ⟨columns', hj', joint, hmem, hover⟩
      cases hj.symm.trans hj'
      exact hnone joint hmem hover
    · exact fun hnone joint hmem hover => hnone ⟨columns, hj, joint, hmem, hover⟩

end Solver

end ArmServo
