import Mathlib
import ArmServo.Proofs.Chain.Shape
import ArmServo.Proofs.Config.Chain
import ArmServo.Proofs.Geometry.Twist

/-!
# The Jacobian is the derivative of the tip pose

The pose of the tip and the Jacobian are found by two walks along a chain. Both meet at the joint
whose position changes: what lies behind it is fixed in a frame that moves with the twist of the
joint, and a column is that twist, taken at the tip.

Main statement: `jacobian_columns_are_derivatives`.
-/

namespace ArmServo

/-! ## chains as they are made -/

namespace Segment

/-- The joint is placed by a unit quaternion, and moves about or along an axis of length one. -/
structure IsRigid (s : Segment ℝ) : Prop where
  origin : s.origin.rotation.IsUnit
  axis : s.isActuated = true → s.axis.dot s.axis = 1

theorem IsRigid.jointTransform {s : Segment ℝ} (hs : s.IsRigid) (q : ℝ) :
    (s.jointTransform q).rotation.IsUnit := by
  unfold Segment.jointTransform
  cases hk : s.kind with
  | revolute =>
    have ha : s.isActuated = true := by rw [Segment.isActuated, hk]; rfl
    exact Rotation.isUnit_ofAxisAngle (hs.axis ha) q
  | prismatic | fixed => exact Rotation.isUnit_one

theorem hasTwist_revolute {s : Segment ℝ} (hk : s.kind = .revolute) {a : Pose ℝ}
    (ha : a.rotation.IsUnit) (hx : s.axis.dot s.axis = 1) (p : ℝ) :
    Pose.HasTwist (fun x => a * s.jointTransform x)
      (a.displacement.cross (a.rotation.apply s.axis)) (a.rotation.apply s.axis) p := by
  have hj : s.jointTransform = fun x => .ofRotation (.ofAxisAngle s.axis x) := by
    funext x
    rw [Segment.jointTransform, hk]
  rw [hj]
  exact Pose.hasTwist_revolute ha hx p

theorem hasTwist_prismatic {s : Segment ℝ} (hk : s.kind = .prismatic) {a : Pose ℝ}
    (ha : a.rotation.IsUnit) (p : ℝ) :
    Pose.HasTwist (fun x => a * s.jointTransform x) (a.rotation.apply s.axis) .zero p := by
  have hj : s.jointTransform = fun x => .ofDisplacement (s.axis.scale x) := by
    funext x
    rw [Segment.jointTransform, hk]
  rw [hj]
  exact Pose.hasTwist_prismatic ha s.axis p

theorem column_hasTwist {s : Segment ℝ} (hs : s.IsRigid) (hm : s.isActuated = true) {a : Pose ℝ}
    (ha : a.rotation.IsUnit) (tip : Vec3 ℝ) (p : ℝ) :
    ∃ v w, s.column a tip = .ofParts (v + w.cross tip) w ∧
      Pose.HasTwist (fun x => a * s.jointTransform x) v w p ∧ (s.kind = .prismatic → w = .zero) := by
  unfold Segment.column
  cases hk : s.kind with
  | revolute =>
    refine ⟨_, _, ?_, hasTwist_revolute hk ha (hs.axis hm) p, fun h => nomatch h⟩
    rw [Vec3.cross_sub_right]
  | prismatic =>
    refine ⟨_, _, ?_, hasTwist_prismatic hk ha p, fun _ => rfl⟩
    rw [Vec3.zero_cross, Vec3.add_zero]
  | fixed =>
    rw [Segment.isActuated, hk] at hm
    cases hm

end Segment

namespace Vec3

theorem dot_divide_norm {v : Vec3 ℝ} (hv : 0 < v.norm) :
    (v.divide v.norm).dot (v.divide v.norm) = 1 := by
  have hsq : v.norm * v.norm = v.dot v := Real.mul_self_sqrt
    (add_nonneg (add_nonneg (mul_self_nonneg _) (mul_self_nonneg _)) (mul_self_nonneg _))
  have hne := hv.ne'
  unfold divide map dot at *
  field_simp
  linear_combination -hsq

end Vec3

namespace Chain

/-- A chain that has been accepted from a description with unit quaternions, or cut out of one. -/
inductive Made : Chain ℝ → Prop
  | ofSegments {base : String} {segments : List (Segment ℝ)} {c : Chain ℝ}
    (hs : ∀ s ∈ segments, s.origin.rotation.IsUnit) (h : ofSegments? base segments = .ok c) : Made c
  | between {c d : Chain ℝ} {base tip : String} (hc : Made c) (h : c.between? base tip = .ok d) :
    Made d

theorem axis_of_accepted {s t : Segment ℝ} (h : s.Accepted t) (ht : t.isActuated = true) :
    t.axis.dot t.axis = 1 := by
  unfold Segment.Accepted at h
  by_cases ha : s.isActuated = true
  · rw [if_pos ha] at h
    obtain ⟨hn, -, -, rfl⟩ := normalized?_eq_ok h
    exact Vec3.dot_divide_norm (lt_of_lt_of_le (Scalar.negPowTen_real_pos 9) (not_lt.mp hn))
  · rw [if_neg ha] at h
    subst h
    exact absurd ht ha

theorem isRigid_of_accepted {s t : Segment ℝ} (h : s.Accepted t) (hs : s.origin.rotation.IsUnit) :
    t.IsRigid := by
  have horigin : t.origin = s.origin := by rw [eq_of_accepted h]
  exact ⟨horigin ▸ hs, axis_of_accepted h⟩

theorem Made.obtained {c : Chain ℝ} (hc : c.Made) : c.Obtained := by
  induction hc with
  | ofSegments _ h => exact .ofSegments h
  | between _ h ih => exact .between ih h

theorem Made.isRigid {c : Chain ℝ} (hc : c.Made) : ∀ s ∈ c.segments, s.IsRigid := by
  induction hc with
  | ofSegments hs h =>
    intro t ht
    obtain ⟨s, hmem, hacc⟩ := mem_of_ofSegments? h ht
    exact isRigid_of_accepted hacc (hs s hmem)
  | between _ h ih => exact fun s hs => ih s (mem_of_between? h s hs)

/-- The chain of a configuration is made like this: roll, pitch and yaw give a unit quaternion. -/
theorem made_of_config {config : Config ℝ} {c : Chain ℝ} (h : config.chain? = .ok c) : c.Made := by
  obtain ⟨full, hfull, hc, -⟩ := Config.chain?_eq_ok h
  refine .between (.ofSegments ?_ hfull) hc
  intro s hs
  obtain ⟨entry, -, rfl⟩ := List.mem_map.mp hs
  exact Rotation.isUnit_ofRollPitchYaw entry.rpy

/-! ## along a chain -/

/-- What lies behind a moving frame moves with its twist. -/
theorem hasTwist_walk {segments : List (Segment ℝ)} (hs : ∀ s ∈ segments, s.IsRigid)
    {t : ℝ → Pose ℝ} {v w : Vec3 ℝ} {p : ℝ} (ht : Pose.HasTwist t v w p) (q : List ℝ) :
    Pose.HasTwist (fun x => walk (t x) segments q) v w p := by
  induction segments generalizing t q with
  | nil => exact ht
  | cons s rest ih =>
    have hrigid := hs s List.mem_cons_self
    have hrest : ∀ u ∈ rest, u.IsRigid := fun u hu => hs u (List.mem_cons_of_mem _ hu)
    have hmoved : ∀ x, Pose.HasTwist (fun y => t y * s.origin * s.jointTransform x) v w p :=
      fun x => (ht.mul hrigid.origin).mul (hrigid.jointTransform x)
    unfold walk
    by_cases ha : s.isActuated = true
    · simp only [if_pos ha]
      exact ih hrest (hmoved _) _
    · simp only [if_neg ha]
      exact ih hrest (hmoved _) _

/-- **The column of a joint is the twist of everything behind it.** The induction is on the segments;
a segment in front of the joint only changes where the walks are. -/
theorem column_hasTwist (tip : Vec3 ℝ) {segments : List (Segment ℝ)}
    (hs : ∀ s ∈ segments, s.IsRigid) {t : Pose ℝ} (ht : t.rotation.IsUnit) {q : List ℝ}
    (out : List (Axes ℝ)) {i : ℕ} {s : Segment ℝ} {p : ℝ}
    (hi : (segments.filter Segment.isActuated)[i]? = some s) (hp : q[i]? = some p) :
    ∃ v w, (writeColumns tip t segments q out)[i]? = some (.ofParts (v + w.cross tip) w) ∧
      Pose.HasTwist (fun x => walk t segments (q.set i x)) v w p ∧
      (s.kind = .prismatic → w = .zero) := by
  induction segments generalizing t q out i with
  | nil => cases hi
  | cons u rest ih =>
    have hrigid := hs u List.mem_cons_self
    have hrest : ∀ u ∈ rest, u.IsRigid := fun u hu => hs u (List.mem_cons_of_mem _ hu)
    have hplaced : (t * u.origin).rotation.IsUnit := ht.mul hrigid.origin
    have hmoved : ∀ x, (t * u.origin * u.jointTransform x).rotation.IsUnit :=
      fun x => hplaced.mul (hrigid.jointTransform x)
    unfold walk
    by_cases hu : u.isActuated = true
    · rw [List.filter_cons_of_pos hu] at hi
      rw [writeColumns_of_actuated hu]
      simp only [if_pos hu]
      obtain ⟨x, qs, rfl⟩ : ∃ x qs, q = x :: qs := List.exists_cons_of_ne_nil (by rintro rfl; cases hp)
      cases i with
      | zero =>
        obtain rfl : u = s := Option.some.inj hi
        obtain rfl : x = p := Option.some.inj hp
        obtain ⟨v, w, hcol, htwist, hprismatic⟩ := Segment.column_hasTwist hrigid hu hplaced tip x
        exact ⟨v, w, congrArg some hcol, hasTwist_walk hrest htwist qs, hprismatic⟩
      | succ i => exact ih hrest (hmoved x) out.tail hi hp
    · rw [List.filter_cons_of_neg hu] at hi
      rw [writeColumns_of_fixed hu]
      simp only [if_neg hu]
      exact ih hrest (hmoved 0) out hi hp

/-- **The Jacobian is the derivative of the tip pose.** For a chain as it is made and as many
positions as it has moving joints there is a Jacobian with one column per moving joint. The linear part
of a column is the derivative of the displacement of the tip by the position of its joint, and the
derivative of the rotation matrix is the cross product with the angular part, which is zero for a
prismatic joint. -/
theorem jacobian_columns_are_derivatives {c : Chain ℝ} (hc : c.Made) {q : List ℝ}
    {out : List (Axes ℝ)} (hq : q.length = c.dof) (hout : out.length = c.dof) :
    ∃ columns, c.jacobian? q out = .ok columns ∧ columns.length = c.dof ∧
      ∀ i s p column, c.actuated[i]? = some s → q[i]? = some p → columns[i]? = some column →
        ∃ P : ℝ → Pose ℝ, (∀ x, c.tipPose? (q.set i x) = .ok (P x)) ∧ c.tipPose? q = .ok (P p) ∧
          Vec3.HasDeriv (fun x => (P x).displacement) column.linear p ∧
          Vec3.RowsHaveDeriv (fun x => (P x).rotation.toMatrix)
            (Rotation.matrixMul column.angular.crossMatrix (P p).rotation.toMatrix) p ∧
          (s.kind = .prismatic → column.angular = .zero) := by
  have hok := jacobian?_eq_ok.mpr ⟨hq, hout, rfl⟩
  refine ⟨_, hok, length_of_jacobian? hok, ?_⟩
  intro i s p column hi hp hcolumn
  obtain ⟨v, w, hcol, ht, hprismatic⟩ := column_hasTwist
    (c.poseAt q c.segments.length).displacement hc.isRigid (t := .one)
    Rotation.isUnit_one out hi hp
  obtain rfl : Axes.ofParts (v + w.cross (c.poseAt q c.segments.length).displacement) w = column :=
    Option.some.inj (hcol.symm.trans hcolumn)
  have hself : q.set i p = q := by
    obtain ⟨hlt, rfl⟩ := List.getElem?_eq_some_iff.mp hp
    exact List.set_getElem_self hlt
  have htip : (c.poseAt q c.segments.length) = walk .one c.segments (q.set i p) := by
    rw [hself, poseAt, List.take_length]
  refine ⟨fun x => walk .one c.segments (q.set i x), fun x => tipPose?_eq_ok (by simpa using hq), ?_,
    ?_, ht.turns.toMatrix, hprismatic⟩
  · show c.tipPose? q = .ok (walk .one c.segments (q.set i p))
    rw [hself]
    exact tipPose?_eq_ok hq
  · rw [htip]
    exact ht.moves

/-- A bracket, a link that turns about an axis given with length two, and a slide across it. -/
noncomputable def slideOnLink : List (Segment ℝ) := [
  ⟨"bracket", "post", .fixed, .unitZ, ⟨.one, ⟨0, 0, 1⟩⟩, .free⟩,
  ⟨"turn", "link", .revolute, ⟨0, 0, Scalar.two⟩, .one, .free⟩,
  ⟨"slide", "tool", .prismatic, ⟨1, 0, 0⟩, ⟨.one, ⟨1, 0, 0⟩⟩, .range 0 1⟩]

theorem ofSegments?_slideOnLink : ∃ c, ofSegments? "floor" slideOnLink = .ok c ∧ c.dof = 2 := by
  have hturn : Vec3.norm (⟨0, 0, 2⟩ : Vec3 ℝ) = 2 := by
    unfold Vec3.norm Vec3.dot
    rw [Scalar.sqrt_real, show (0 : ℝ) * 0 + 0 * 0 + 2 * 2 = 2 ^ 2 by norm_num]
    exact Real.sqrt_sq (by norm_num)
  have hslide : Vec3.norm (⟨1, 0, 0⟩ : Vec3 ℝ) = 1 := Vec3.norm_eq_one (by norm_num [Vec3.dot])
  have hmin : (minimalAxis : ℝ) ≤ 1 := Scalar.negPowTen_real_le_one 9
  have h2 : ¬ (2 : ℝ) < minimalAxis := by linarith
  have h1 : ¬ (1 : ℝ) < minimalAxis := by linarith
  simp [ofSegments?, slideOnLink, accept, normalized?, hturn, hslide, h1, h2, Segment.isActuated,
    JointKind.isActuated, bind, Except.bind, pure, Except.pure, Scalar.isFinite]
  rfl

theorem isUnit_slideOnLink : ∀ s ∈ slideOnLink, s.origin.rotation.IsUnit := by
  intro s hs
  simp only [slideOnLink, List.mem_cons, List.not_mem_nil, or_false] at hs
  rcases hs with rfl | rfl | rfl <;> exact Rotation.isUnit_one

theorem made_slideOnLink {c : Chain ℝ} (h : ofSegments? "floor" slideOnLink = .ok c) : c.Made :=
  .ofSegments isUnit_slideOnLink h

theorem frames_slideOnLink {c : Chain ℝ} (h : ofSegments? "floor" slideOnLink = .ok c) :
    c.frames = ["floor", "post", "link", "tool"] := by
  obtain ⟨-, -, -, hbase, haccepted⟩ := ofSegments?_eq_ok_iff.mp h
  unfold frames
  rw [hbase, map_link_of_accepted haccepted]
  rfl

/-- A link turned by one and a slide halfway out: there is a Jacobian, and its first column tells how
the turning moves the tip. -/
theorem slideOnLink_first_column : ∃ c : Chain ℝ, c.Made ∧ c.dof = 2 ∧
    ∃ columns column, c.jacobian? [1, 1 / 2] c.jacobianBuffer = .ok columns ∧
      columns[0]? = some column ∧ ∃ P : ℝ → Pose ℝ, c.tipPose? [1, 1 / 2] = .ok (P 1) ∧
        Vec3.HasDeriv (fun x => (P x).displacement) column.linear 1 := by
  obtain ⟨c, hc, hdof⟩ := ofSegments?_slideOnLink
  have hmade := made_slideOnLink hc
  obtain ⟨columns, hok, hlength, hcolumns⟩ := jacobian_columns_are_derivatives hmade
    (q := [1, 1 / 2]) hdof.symm (show c.jacobianBuffer.length = c.dof from List.length_replicate ..)
  obtain ⟨column, hcolumn⟩ : ∃ column, columns[0]? = some column :=
    ⟨_, List.getElem?_eq_getElem (by omega)⟩
  obtain ⟨s, hs⟩ : ∃ s, c.actuated[0]? = some s :=
    ⟨_, List.getElem?_eq_getElem (by show 0 < c.dof; omega)⟩
  obtain ⟨P, -, hP, hlinear, -⟩ := hcolumns 0 s 1 column hs rfl hcolumn
  exact ⟨c, hmade, hdof, columns, column, hok, hcolumn, P, hP, hlinear⟩

end Chain

end ArmServo
