import ArmServo.Chain.Jacobian
import ArmServo.Proofs.Effects

/-!
# The shape of a Jacobian

Columns are written for the moving joints only, and a buffer of the right width keeps its width. A
buffer whose Jacobian is refused stays as it is.
-/

namespace ArmServo

variable {α : Type} [Scalar α]

/-- The column of a moving joint that is placed at `a`. -/
def Segment.column (s : Segment α) (a : Pose α) (tip : Vec3 α) : Axes α :=
  let z := a.rotation.apply s.axis
  match s.kind with
  | .revolute => .ofParts (z.cross (tip - a.displacement)) z
  | .prismatic | .fixed => .ofParts z .zero

namespace Chain

/-! ## one segment of the walk -/

theorem writeColumns_of_actuated {s : Segment α} (hs : s.isActuated = true) (tip : Vec3 α)
    (t : Pose α) (rest : List (Segment α)) (q : List α) (out : List (Axes α)) :
    writeColumns tip t (s :: rest) q out = s.column (t * s.origin) tip ::
      writeColumns tip (t * s.origin * s.jointTransform (q.headD 0)) rest q.tail out.tail := by
  rw [writeColumns, Segment.column]
  unfold Segment.isActuated at hs
  cases hk : s.kind with
  | revolute | prismatic => rfl
  | fixed =>
    rw [hk] at hs
    cases hs

theorem writeColumns_of_fixed {s : Segment α} (hs : ¬ s.isActuated = true) (tip : Vec3 α)
    (t : Pose α) (rest : List (Segment α)) (q : List α) (out : List (Axes α)) :
    writeColumns tip t (s :: rest) q out =
      writeColumns tip (t * s.origin * s.jointTransform 0) rest q out := by
  rw [writeColumns]
  unfold Segment.isActuated at hs
  cases hk : s.kind with
  | revolute | prismatic =>
    rw [hk] at hs
    exact absurd rfl hs
  | fixed => rfl

/-! ## widths -/

omit [Scalar α] in
theorem checkDimension_eq_ok {c : Chain α} {n : Nat} :
    c.checkDimension n = .ok () ↔ n = c.dof := by
  unfold checkDimension
  by_cases hn : n = c.dof
  · rw [if_pos hn]
    exact ⟨fun _ => hn, fun _ => rfl⟩
  · rw [if_neg hn]
    exact ⟨fun h => (nomatch h), fun h => absurd h hn⟩

theorem length_writeColumns (tip : Vec3 α) (t : Pose α) (segments : List (Segment α)) (q : List α)
    (out : List (Axes α)) (h : (segments.filter Segment.isActuated).length ≤ out.length) :
    (writeColumns tip t segments q out).length = out.length := by
  induction segments generalizing t q out with
  | nil => rfl
  | cons s rest ih =>
    by_cases hs : s.isActuated = true
    · rw [List.filter_cons_of_pos hs, List.length_cons] at h
      have hout : out.tail.length = out.length - 1 := List.length_tail
      rw [writeColumns_of_actuated hs, List.length_cons, ih _ _ _ (by omega)]
      omega
    · rw [List.filter_cons_of_neg hs] at h
      rw [writeColumns_of_fixed hs, ih _ _ _ h]

theorem writeJacobian_run_eq (c : Chain α) (q : List α) (out : List (Axes α)) :
    (c.writeJacobian q).run out =
      match (do
        c.checkDimension q.length
        c.checkDimension out.length
        pure (writeColumns (c.poseAt q c.segments.length).displacement .one c.segments q out)) with
      | .ok columns => (.ok (), columns)
      | .error e => (.error e, out) := by
  unfold writeJacobian
  simp only [run_bind, run_get, run_modify, run_liftM]
  cases c.checkDimension q.length with
  | error e => rfl
  | ok _ =>
    simp only
    cases c.checkDimension out.length <;> rfl

theorem jacobian?_eq (c : Chain α) (q : List α) (out : List (Axes α)) : c.jacobian? q out =
      (do
        c.checkDimension q.length
        c.checkDimension out.length
        pure (writeColumns (c.poseAt q c.segments.length).displacement .one c.segments q out)) := by
  unfold jacobian?
  rw [writeJacobian_run_eq]
  cases c.checkDimension q.length with
  | error e => rfl
  | ok _ => cases c.checkDimension out.length <;> rfl

/-- **The buffer after a Jacobian**: its columns, or what it was. -/
theorem writeJacobian_run (c : Chain α) (q : List α) (out : List (Axes α)) :
    (c.writeJacobian q).run out = match c.jacobian? q out with
      | .ok columns => (.ok (), columns)
      | .error e => (.error e, out) := by
  rw [writeJacobian_run_eq, jacobian?_eq]

/-- **A Jacobian is only written for as many positions as there are moving joints**, into as many
columns. -/
theorem jacobian?_eq_ok {c : Chain α} {q : List α} {out columns : List (Axes α)} :
    c.jacobian? q out = .ok columns ↔ q.length = c.dof ∧ out.length = c.dof ∧
      columns = writeColumns (c.poseAt q c.segments.length).displacement .one c.segments q out := by
  rw [jacobian?_eq]
  simp only [bind_eq_ok]
  constructor
  · rintro ⟨_, hq, _, hout, h⟩
    cases h
    exact ⟨checkDimension_eq_ok.mp hq, checkDimension_eq_ok.mp hout, rfl⟩
  · rintro ⟨hq, hout, rfl⟩
    exact ⟨(), checkDimension_eq_ok.mpr hq, (), checkDimension_eq_ok.mpr hout, rfl⟩

theorem length_of_jacobian? {c : Chain α} {q : List α} {out columns : List (Axes α)}
    (h : c.jacobian? q out = .ok columns) : columns.length = c.dof := by
  obtain ⟨-, hout, rfl⟩ := jacobian?_eq_ok.mp h
  rw [length_writeColumns _ _ _ _ _ (Nat.le_of_eq hout.symm), hout]

end Chain

end ArmServo
