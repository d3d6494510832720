import ArmServo.Proofs.Chain.Runs
import ArmServo.Proofs.Geometry.Frames

/-!
# A chain on a mount

A chain on a mount is the same chain behind one more fixed segment. Its poses are those of the chain,
placed by the mount. The columns of its Jacobian are those of the chain, turned by the mount: where
the mount stands cancels in every lever arm, and cross products are turned with their factors.

Main statements: `Made.ofSegments?_mountedOn`, `jacobian?_mountedOn`.
-/

namespace ArmServo

theorem Pose.one_mul (a : Pose ℝ) : one * a = a := by
  have hrotation : (Rotation.one : Rotation ℝ) * a.rotation = a.rotation := by
    ext <;> simp only [Rotation.mul_w, Rotation.mul_x, Rotation.mul_y, Rotation.mul_z,
      Rotation.one] <;> ring
  have hdisplacement : .zero + (Rotation.one : Rotation ℝ).apply a.displacement =
      a.displacement := by
    rw [Rotation.one_apply, Vec3.zero_add]
  exact congrArg₂ Pose.mk hrotation hdisplacement

theorem Segment.column_mul (s : Segment ℝ) {t a : Pose ℝ} (ht : t.rotation.IsUnit)
    (ha : a.rotation.IsUnit) (tip : Vec3 ℝ) :
    s.column (t * a) (t.displacement + t.rotation.apply tip) =
      t.rotation.rotate (s.column a tip) := by
  have hlever : t.displacement + t.rotation.apply tip - (t * a).displacement =
      t.rotation.apply (tip - a.displacement) := by
    rw [Pose.mul_displacement, Rotation.apply_sub]
    ext <;> simp only [Vec3.add_x, Vec3.add_y, Vec3.add_z, Vec3.sub_x, Vec3.sub_y, Vec3.sub_z] <;>
      ring
  unfold Segment.column Rotation.rotate
  rw [Pose.mul_rotation, Rotation.apply_mul ht ha]
  cases s.kind with
  | revolute =>
    dsimp only
    rw [hlever, Axes.linear_ofParts, Axes.angular_ofParts, Rotation.apply_cross ht]
  | prismatic | fixed =>
    dsimp only
    rw [Axes.linear_ofParts, Axes.angular_ofParts, Rotation.apply_zero]

namespace Chain

/-- The chain behind a first segment that carries its base. -/
def mountedOn {α : Type} (c : Chain α) (root : String) (mount : Segment α) : Chain α :=
  ⟨root, mount :: c.segments⟩

/-! ## acceptance -/

theorem accepted_self {s : Segment ℝ} (hs : s.IsRigid)
    (hl : s.isActuated = true → s.limits.isValid = true) : s.Accepted s := by
  unfold Segment.Accepted
  split
  next ha =>
    have hnorm : s.axis.norm = 1 := Vec3.norm_eq_one (hs.axis ha)
    have hmin : ¬ s.axis.norm < minimalAxis := by
      rw [hnorm]
      exact not_lt.mpr (Scalar.negPowTen_real_le_one 9)
    obtain ⟨t, ht⟩ := exists_normalized?_iff.mpr ⟨hmin, rfl, hl ha⟩
    have haxis : s.axis.divide s.axis.norm = s.axis := by
      rw [hnorm]
      ext <;> exact div_one _
    obtain ⟨-, -, -, rfl⟩ := normalized?_eq_ok ht
    rwa [haxis] at ht
  next => rfl

theorem Made.accepted {c : Chain ℝ} (hc : c.Made) :
    List.Forall₂ Segment.Accepted c.segments c.segments := by
  refine List.forall₂_same.mpr fun s hs => accepted_self (hc.isRigid s hs) fun ha => ?_
  exact hc.obtained.wellFormed.limits s (List.mem_filter.mpr ⟨hs, ha⟩)

theorem Made.nodup_jointNames {c : Chain ℝ} (hc : c.Made) : c.jointNames.Nodup := by
  induction hc with
  | ofSegments _ h => exact nodup_jointNames_of_ofSegments? h
  | between _ h ih => exact nodup_jointNames_of_between? h ih

section Mounted

variable {c : Chain ℝ} {root : String} {mount : Segment ℝ}

/-- **A chain can be mounted** on a fixed segment with names of its own. -/
theorem Made.ofSegments?_mountedOn (hc : c.Made) (hfixed : ¬ mount.isActuated = true)
    (hnames : (root :: mount.link :: c.segments.map Segment.link).Nodup) :
    ofSegments? root (mount :: c.segments) = .ok (c.mountedOn root mount) := by
  refine ofSegments?_eq_ok_iff.mpr ⟨List.cons_ne_nil _ _, hnames, ?_, rfl, .cons ?_ hc.accepted⟩
  · unfold Segment.movingJoints
    rw [List.filter_cons_of_neg hfixed]
    exact hc.nodup_jointNames
  · unfold Segment.Accepted
    rw [if_neg hfixed]

theorem actuated_mountedOn (hfixed : ¬ mount.isActuated = true) :
    (c.mountedOn root mount).actuated = c.actuated :=
  List.filter_cons_of_neg hfixed

theorem dof_mountedOn (hfixed : ¬ mount.isActuated = true) :
    (c.mountedOn root mount).dof = c.dof :=
  congrArg List.length (actuated_mountedOn hfixed)

/-! ## poses and columns -/

theorem jointTransform_of_fixed {s : Segment ℝ} (hfixed : ¬ s.isActuated = true) (q : ℝ) :
    s.jointTransform q = .one := by
  unfold Segment.jointTransform
  unfold Segment.isActuated at hfixed
  cases hk : s.kind with
  | fixed => rfl
  | revolute | prismatic =>
    rw [hk] at hfixed
    exact absurd rfl hfixed

/-- The chain as a whole is moved by its mount. -/
theorem walk_mount (hc : ∀ s ∈ c.segments, s.IsRigid) (hfixed : ¬ mount.isActuated = true)
    (hmount : mount.origin.rotation.IsUnit) (q : List ℝ) :
    walk .one (mount :: c.segments) q = mount.origin * walk .one c.segments q := by
  rw [walk, if_neg hfixed, jointTransform_of_fixed hfixed, Pose.one_mul,
    walk_mul hc hmount Rotation.isUnit_one]

/-- **Columns are turned with the walk that writes them**, whatever was in their buffers. The induction
is on the segments; a fixed one writes nothing and only moves the walk on. -/
theorem writeColumns_mul {segments : List (Segment ℝ)} (hs : ∀ s ∈ segments, s.IsRigid)
    {t u : Pose ℝ} (ht : t.rotation.IsUnit) (hu : u.rotation.IsUnit) (tip : Vec3 ℝ) (q : List ℝ)
    {out out' : List (Axes ℝ)} (h : out.length = (segments.filter Segment.isActuated).length)
    (h' : out'.length = (segments.filter Segment.isActuated).length) :
    writeColumns (t.displacement + t.rotation.apply tip) (t * u) segments q out' =
      (writeColumns tip u segments q out).map t.rotation.rotate := by
  induction segments generalizing u q out out' with
  | nil =>
    rw [List.length_eq_zero_iff.mp h, List.length_eq_zero_iff.mp h']
    rfl
  | cons s rest ih =>
    have hrigid := hs s List.mem_cons_self
    have hrest : ∀ v ∈ rest, v.IsRigid := fun v hv => hs v (List.mem_cons_of_mem _ hv)
    have hplaced : (u * s.origin).rotation.IsUnit := hu.mul hrigid.origin
    have hmoved : ∀ x, (u * s.origin * s.jointTransform x).rotation.IsUnit :=
      fun x => hplaced.mul (hrigid.jointTransform x)
    have hassoc : ∀ x, t * u * s.origin * s.jointTransform x =
        t * (u * s.origin * s.jointTransform x) := by
      intro x
      rw [Pose.mul_assoc ht hu, Pose.mul_assoc ht hplaced]
    by_cases ha : s.isActuated = true
    · rw [List.filter_cons_of_pos ha, List.length_cons] at h h'
      have hcolumn : s.column (t * u * s.origin) (t.displacement + t.rotation.apply tip) =
          t.rotation.rotate (s.column (u * s.origin) tip) := by
        rw [Pose.mul_assoc ht hu, Segment.column_mul s ht hplaced]
      rw [writeColumns_of_actuated ha, writeColumns_of_actuated ha, List.map_cons, hcolumn, hassoc]
      congr 1
      exact ih hrest (hmoved _) q.tail (by rw [List.length_tail, h]; rfl)
        (by rw [List.length_tail, h']; rfl)
    · rw [List.filter_cons_of_neg ha] at h h'
      rw [writeColumns_of_fixed ha, writeColumns_of_fixed ha, hassoc]
      exact ih hrest (hmoved _) q h h'

theorem checkDimension_mountedOn (hfixed : ¬ mount.isActuated = true) (n : ℕ) :
    (c.mountedOn root mount).checkDimension n = c.checkDimension n := by
  unfold checkDimension
  rw [dof_mountedOn hfixed]

/-- **The Jacobian of a mounted chain** is that of the chain, column by column turned by the mount;
where one of them is refused, so is the other. -/
theorem jacobian?_mountedOn (hc : ∀ s ∈ c.segments, s.IsRigid) (hfixed : ¬ mount.isActuated = true)
    (hmount : mount.origin.rotation.IsUnit) (q : List ℝ) {out out' : List (Axes ℝ)}
    (hout : out'.length = out.length) :
    (c.mountedOn root mount).jacobian? q out' =
      (c.jacobian? q out).map (List.map mount.origin.rotation.rotate) := by
  rw [jacobian?_eq, jacobian?_eq, checkDimension_mountedOn hfixed, checkDimension_mountedOn hfixed,
    hout]
  cases hq : c.checkDimension q.length with
  | error e => rfl
  | ok _ =>
    cases ho : c.checkDimension out.length with
    | error e => rfl
    | ok _ =>
      have hwidth : out.length = c.dof := checkDimension_eq_ok.mp ho
      have htip : (c.mountedOn root mount).poseAt q (c.mountedOn root mount).segments.length =
          mount.origin * c.poseAt q c.segments.length := by
        unfold poseAt
        rw [List.take_length, List.take_length]
        exact walk_mount hc hfixed hmount q
      have hcolumns := writeColumns_mul hc hmount (u := .one) Rotation.isUnit_one
        (c.poseAt q c.segments.length).displacement q hwidth (hout.trans hwidth)
      rw [Pose.mul_one] at hcolumns
      show Except.ok (writeColumns _ .one (mount :: c.segments) q out') = .ok (List.map _ _)
      rw [htip, Pose.mul_displacement, writeColumns_of_fixed hfixed,
        jointTransform_of_fixed hfixed, Pose.mul_one, Pose.one_mul, hcolumns]

end Mounted

end Chain

end ArmServo
