import ArmServo.Proofs.Chain.Runs
import ArmServo.Proofs.Controller.Servo
import ArmServo.Proofs.Geometry.Frames

/-!
# Expressing in another frame

The frame utilities of an initialized controller change between the base frame and a frame of its
chain by the rotation of that frame at the simulated positions. Axes of length one, placements by
roll, pitch and yaw and products along the chain keep it a unit quaternion, so that the change is an
isometry, for six-vectors and for tensors alike.

Main statement: `frame_changes_are_isometries`.
-/

namespace ArmServo

/-! ## the rotation of a frame -/

namespace Chain

/-- **Every frame of a chain is turned by a unit quaternion.** -/
theorem Made.rotation?_eq_ok {c : Chain ℝ} (hc : c.Made) {q : List ℝ} (hq : q.length = c.dof)
    {frame : String} (hframe : frame ∈ c.frames) :
    ∃ r, c.rotation? q frame = .ok r ∧ r.IsUnit := by
  obtain ⟨i, hi⟩ : ∃ i, c.frameIndex? frame = some i := by
    cases hi : c.frameIndex? frame with
    | none => exact absurd hframe (frameIndex?_eq_none_iff.mp hi)
    | some i => exact ⟨i, rfl⟩
  refine ⟨(walk .one (c.segments.take i) q).rotation, ?_, ?_⟩
  · unfold rotation?
    rw [pose?_eq_ok hq hi]
    rfl
  · exact isUnit_walk (fun s hs => hc.isRigid s (List.mem_of_mem_take hs)) Rotation.isUnit_one q

end Chain

/-! ## the utilities -/

namespace Controller

variable {J : Type} {c : Controller ℝ J} {frame : String} {r : Rotation ℝ}

theorem expressInBase?_of_rotation (h : c.rotationToBase? frame = .ok r) (v : Axes ℝ) :
    c.expressInBase? v frame = .ok (r.rotate v) := by
  unfold expressInBase?
  rw [h]
  rfl

theorem expressInFrame?_of_rotation (h : c.rotationToBase? frame = .ok r) (v : Axes ℝ) :
    c.expressInFrame? v frame = .ok (r.inverseRotate v) := by
  unfold expressInFrame?
  rw [h]
  rfl

theorem expressTensorInBase?_of_rotation (h : c.rotationToBase? frame = .ok r) (k : Tensor ℝ) :
    c.expressTensorInBase? k frame = .ok (r.rotateTensor k) := by
  unfold expressTensorInBase?
  rw [h]
  rfl

/-- The change between the base frame and a frame is by a unit quaternion; six-vectors go there and
back, with the lengths of their linear and angular parts; and a tensor without its coupling blocks
does the same in both frames. -/
structure ChangesIsometrically (c : Controller ℝ J) (frame : String) : Prop where
  rotation : ∃ r, c.rotationToBase? frame = .ok r ∧ r.IsUnit
  toBase : ∀ v, ∃ w, c.expressInBase? v frame = .ok w ∧ c.expressInFrame? w frame = .ok v ∧
    w.linear.norm = v.linear.norm ∧ w.angular.norm = v.angular.norm
  toFrame : ∀ w, ∃ v, c.expressInFrame? w frame = .ok v ∧ c.expressInBase? v frame = .ok w ∧
    v.linear.norm = w.linear.norm ∧ v.angular.norm = w.angular.norm
  tensor : ∀ k, ∃ k', c.expressTensorInBase? k frame = .ok k' ∧
    (∀ v w, c.expressInBase? v frame = .ok w →
      c.expressInBase? (k.uncoupled.mulVec v) frame = .ok (k'.mulVec w) ∧
        w.dot (k'.mulVec w) = v.dot (k.uncoupled.mulVec v)) ∧
    (Rotation.IsSymmetric k'.linearBlock ↔ Rotation.IsSymmetric k.linearBlock) ∧
    (Rotation.IsSymmetric k'.angularBlock ↔ Rotation.IsSymmetric k.angularBlock) ∧
    (Rotation.IsPosDef k'.linearBlock ↔ Rotation.IsPosDef k.linearBlock) ∧
    (Rotation.IsPosDef k'.angularBlock ↔ Rotation.IsPosDef k.angularBlock)

theorem changesIsometrically_of_rotation (h : c.rotationToBase? frame = .ok r) (hr : r.IsUnit) :
    c.ChangesIsometrically frame := by
  have hbase := expressInBase?_of_rotation h
  have hframe := expressInFrame?_of_rotation h
  constructor
  case rotation => exact ⟨r, h, hr⟩
  case toBase =>
    intro v
    refine ⟨r.rotate v, hbase v, ?_, Rotation.norm_apply hr _, Rotation.norm_apply hr _⟩
    rw [hframe, Rotation.inverseRotate_rotate hr]
  case toFrame =>
    intro w
    refine ⟨r.inverseRotate w, hframe w, ?_, Rotation.norm_apply hr.inverse _,
      Rotation.norm_apply hr.inverse _⟩
    rw [hbase, Rotation.rotate_inverseRotate hr]
  case tensor =>
    intro k
    refine ⟨r.rotateTensor k, expressTensorInBase?_of_rotation h k, ?_,
      Rotation.isSymmetric_rotateBlock_iff hr, Rotation.isSymmetric_rotateBlock_iff hr,
      Rotation.isPosDef_rotateBlock_iff hr, Rotation.isPosDef_rotateBlock_iff hr⟩
    intro v w hw
    rw [hbase] at hw
    cases hw
    rw [hbase, Rotation.rotateTensor_mulVec_rotate hr, Rotation.rotate_dot_rotate hr]
    exact ⟨rfl, rfl⟩

end Controller

/-! ## at every initialized controller -/

namespace Station

variable {H J : Type} [JointBus H J ℝ]

theorem made_of_after {s : Station H J ℝ} (hs : s.controller.core = none)
    (events : List (Event H ℝ)) {solve : TaskSpace.Method ℝ} {c : Core ℝ J}
    (hc : (s.after events solve).controller.core = some c) : c.chain.Made := by
  obtain ⟨config, h, -, hb⟩ := builtFor_of_after hs events solve hc
  exact Chain.made_of_config hb.chain

/-- **Changes of frame are isometries.** Whatever a controller has been through, at every frame of its
chain there is a rotation to the base frame, a unit quaternion, and the frame utilities change
between the two frames isometrically. -/
theorem frame_changes_are_isometries {s : Station H J ℝ} (hs : s.controller.core = none)
    (events : List (Event H ℝ)) {solve : TaskSpace.Method ℝ} {c : Core ℝ J}
    (hc : (s.after events solve).controller.core = some c) {frame : String}
    (hframe : frame ∈ c.chain.frames) :
    (s.after events solve).controller.ChangesIsometrically frame := by
  have hshaped := shaped_of_after hs events hc
  obtain ⟨r, hr, hunit⟩ := (made_of_after hs events hc).rotation?_eq_ok
    hshaped.solver.positions hframe
  refine Controller.changesIsometrically_of_rotation (r := r) ?_ hunit
  unfold Controller.rotationToBase? Controller.core?
  rw [hc]
  show (c.chain.rotation? c.positions frame).mapError ControlError.kinematics = .ok r
  rw [show c.chain.rotation? c.positions frame = .ok r from hr]
  rfl

/-- A plate that turns about a vertical axis. -/
noncomputable def turntable : Config ℝ :=
  { lift with
    tipFrame := "plate"
    joints := ["turn"]
    commandKind := some .position
    segments := [⟨"turn", "plate", .revolute, .unitZ, .zero, .zero, .free⟩] }

theorem validate?_turntable : turntable.validate? = .ok () := by
  have hperiod : turntable.period? = .ok ⟨1000000⟩ := by
    unfold Config.period?
    simp only [turntable, lift, nanoseconds?_milli, zero_lt_one, if_true]
    rfl
  unfold Config.validate?
  rw [hperiod]
  rfl

theorem chain?_turntable :
    ∃ chain, turntable.chain? = .ok chain ∧ chain.frames = ["floor", "plate"] := by
  have hnorm : Vec3.norm (.unitZ : Vec3 ℝ) = 1 :=
    Vec3.norm_eq_one (by norm_num [Vec3.dot, Vec3.unitZ])
  have hmin : ¬ (1 : ℝ) < Chain.minimalAxis := not_lt.mpr (Scalar.negPowTen_real_le_one 9)
  have hdescription : ∃ axis, turntable.description? =
      .ok ⟨"floor", [⟨"turn", "plate", .revolute, axis, .ofXyzRpy .zero .zero, .free⟩]⟩ := by
    refine ⟨Vec3.unitZ.divide 1, ?_⟩
    simp [turntable, lift, Config.description?, Chain.ofSegments?, Chain.accept, Chain.normalized?,
      SegmentEntry.toSegment, hnorm, hmin, Segment.isActuated, JointKind.isActuated, bind,
      Except.bind, pure, Except.pure, Scalar.isFinite]
  obtain ⟨axis, haxis⟩ := hdescription
  unfold Config.chain?
  rw [validate?_turntable, haxis]
  exact ⟨_, rfl, rfl⟩

/-- A turntable that is found turned by one: a wrench on the plate is as strong in the base frame. -/
theorem turntable_keeps_wrenches : ∃ w,
    (launched .position turntable ⟨[⟨"turn", 1, 0, none, 0⟩]⟩).controller.expressInBase?
        ⟨1, 0, 0, 0, 0, 1⟩ "plate" = .ok w ∧
      w.linear.norm = (⟨1, 0, 0⟩ : Vec3 ℝ).norm ∧ w.angular.norm = (⟨0, 0, 1⟩ : Vec3 ℝ).norm := by
  obtain ⟨chain, hchain, hframes⟩ := chain?_turntable
  have hdamping : (!Scalar.isFinite (1 : ℝ) || decide ((1 : ℝ) < 0)) = false :=
    decide_eq_false (not_lt.mpr zero_le_one)
  have hbuilt : buildCore? .position (⟨[⟨"turn", 1, 0, none, 0⟩]⟩ : Bench ℝ)
      { turntable with commandKind := some .position } = .ok _ :=
    buildCore?_eq_ok.mpr ⟨validate?_turntable, rfl, chain, [⟨"turn", 0⟩], _, hchain, .cons rfl .nil,
      if_neg (ne_true_of_eq_false hdamping), rfl⟩
  obtain ⟨-, hstep⟩ := inStep_launched hbuilt
  have hplate : "plate" ∈ chain.frames := by
    rw [hframes]
    decide
  have hchanges := frame_changes_are_isometries (s := fresh .position _) rfl
    (launch .position turntable) hstep.core hplate
  obtain ⟨w, hw, -, hlinear, hangular⟩ := hchanges.toBase ⟨1, 0, 0, 0, 0, 1⟩
  exact ⟨w, hw, hlinear, hangular⟩

end Station

end ArmServo
