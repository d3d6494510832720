import Mathlib
import ArmServo.Geometry.Rotation
import ArmServo.Proofs.Geometry.Rotation

/-!
# Frames that move

A frame whose pose depends on a number moves with a twist: it turns with an angular velocity, and the
point of it that is at the origin has a linear velocity. What is fixed in a moving frame has the same
twist (`HasTwist.mul`), so the twist of a joint is the twist of everything behind it.
-/

namespace ArmServo

/-! ## sums and cross products -/

namespace Vec3

theorem add_assoc (a b c : Vec3 ℝ) : a + b + c = a + (b + c) := by
  ext <;> simp only [add_x, add_y, add_z] <;> ring

theorem zero_add (a : Vec3 ℝ) : .zero + a = a := by
  ext <;> simp only [add_x, add_y, add_z, zero] <;> ring

theorem add_zero (a : Vec3 ℝ) : a + .zero = a := by
  ext <;> simp only [add_x, add_y, add_z, zero] <;> ring

theorem cross_add (a b c : Vec3 ℝ) : a.cross (b + c) = a.cross b + a.cross c := by
  ext <;> simp only [add_x, add_y, add_z, cross_x, cross_y, cross_z] <;> ring

theorem cross_add_cross_swap (a b : Vec3 ℝ) : a.cross b + b.cross a = .zero := by
  ext <;> simp only [add_x, add_y, add_z, cross_x, cross_y, cross_z, zero] <;> ring

theorem cross_sub_right (a b c : Vec3 ℝ) : b.cross a + a.cross c = a.cross (c - b) := by
  ext <;> simp only [add_x, add_y, add_z, sub_x, sub_y, sub_z, cross_x, cross_y, cross_z] <;> ring

theorem zero_cross (a : Vec3 ℝ) : Vec3.zero.cross a = .zero := by
  ext <;> simp only [cross_x, cross_y, cross_z, zero] <;> ring

end Vec3

/-! ## derivatives by components -/

/-- The derivative of a moving vector, component by component. -/
structure Vec3.HasDeriv (f : ℝ → Vec3 ℝ) (f' : Vec3 ℝ) (p : ℝ) : Prop where
  x : HasDerivAt (fun s => (f s).x) f'.x p
  y : HasDerivAt (fun s => (f s).y) f'.y p
  z : HasDerivAt (fun s => (f s).z) f'.z p

/-- The derivative of a moving matrix, row by row. -/
structure Vec3.RowsHaveDeriv (m : ℝ → Vec3 (Vec3 ℝ)) (m' : Vec3 (Vec3 ℝ)) (p : ℝ) : Prop where
  x : HasDeriv (fun s => (m s).x) m'.x p
  y : HasDeriv (fun s => (m s).y) m'.y p
  z : HasDeriv (fun s => (m s).z) m'.z p

/-- The derivative of a moving quaternion, component by component. -/
structure Rotation.HasDeriv (r : ℝ → Rotation ℝ) (r' : Rotation ℝ) (p : ℝ) : Prop where
  w : HasDerivAt (fun s => (r s).w) r'.w p
  x : HasDerivAt (fun s => (r s).x) r'.x p
  y : HasDerivAt (fun s => (r s).y) r'.y p
  z : HasDerivAt (fun s => (r s).z) r'.z p

namespace Vec3

/-- The matrix by rows that takes the cross product with `w`. -/
def crossMatrix (w : Vec3 ℝ) : Vec3 (Vec3 ℝ) :=
  ⟨⟨0, -w.z, w.y⟩, ⟨w.z, 0, -w.x⟩, ⟨-w.y, w.x, 0⟩⟩

theorem HasDeriv.add {f g : ℝ → Vec3 ℝ} {f' g' : Vec3 ℝ} {p : ℝ} (hf : HasDeriv f f' p)
    (hg : HasDeriv g g' p) : HasDeriv (fun s => f s + g s) (f' + g') p :=
  ⟨hf.x.add hg.x, hf.y.add hg.y, hf.z.add hg.z⟩

theorem hasDeriv_const (v : Vec3 ℝ) (p : ℝ) : HasDeriv (fun _ => v) .zero p :=
  ⟨hasDerivAt_const p v.x, hasDerivAt_const p v.y, hasDerivAt_const p v.z⟩

theorem hasDeriv_scale (v : Vec3 ℝ) (p : ℝ) : HasDeriv (fun s => v.scale s) v p :=
  ⟨((hasDerivAt_id' p).const_mul v.x).congr_deriv (mul_one _),
    ((hasDerivAt_id' p).const_mul v.y).congr_deriv (mul_one _),
    ((hasDerivAt_id' p).const_mul v.z).congr_deriv (mul_one _)⟩

theorem HasDeriv.dot_const {f : ℝ → Vec3 ℝ} {f' : Vec3 ℝ} {p : ℝ} (hf : HasDeriv f f' p)
    (v : Vec3 ℝ) : HasDerivAt (fun s => (f s).dot v) (f'.dot v) p :=
  ((hf.x.mul_const v.x).add (hf.y.mul_const v.y)).add (hf.z.mul_const v.z)

theorem RowsHaveDeriv.mulVec_const {m : ℝ → Vec3 (Vec3 ℝ)} {m' : Vec3 (Vec3 ℝ)} {p : ℝ}
    (hm : RowsHaveDeriv m m' p) (v : Vec3 ℝ) :
    HasDeriv (fun s => Rotation.mulVec (m s) v) (Rotation.mulVec m' v) p :=
  ⟨hm.x.dot_const v, hm.y.dot_const v, hm.z.dot_const v⟩

theorem mulVec_crossMatrix_mul (w : Vec3 ℝ) (m : Vec3 (Vec3 ℝ)) (v : Vec3 ℝ) :
    Rotation.mulVec (Rotation.matrixMul w.crossMatrix m) v = w.cross (Rotation.mulVec m v) := by
  ext <;> simp only [Rotation.mulVec, Rotation.matrixMul, crossMatrix, map, dot, cross_x, cross_y,
    cross_z] <;> ring

end Vec3

namespace Rotation

/-- How a quaternion changes that turns with angular velocity `w`: by half of `w r`. -/
noncomputable def spin (w : Vec3 ℝ) (r : Rotation ℝ) : Rotation ℝ := ofVector (w.scale Scalar.half) * r

theorem spin_w (w : Vec3 ℝ) (r : Rotation ℝ) :
    (spin w r).w = -(w.x * r.x + w.y * r.y + w.z * r.z) / 2 := by
  simp only [spin, ofVector, mul_w, Vec3.scale_x, Vec3.scale_y, Vec3.scale_z,
    Scalar.half_real]
  ring

theorem spin_x (w : Vec3 ℝ) (r : Rotation ℝ) :
    (spin w r).x = (w.x * r.w + w.y * r.z - w.z * r.y) / 2 := by
  simp only [spin, ofVector, mul_x, Vec3.scale_x, Vec3.scale_y, Vec3.scale_z,
    Scalar.half_real]
  ring

theorem spin_y (w : Vec3 ℝ) (r : Rotation ℝ) :
    (spin w r).y = (w.y * r.w + w.z * r.x - w.x * r.z) / 2 := by
  simp only [spin, ofVector, mul_y, Vec3.scale_x, Vec3.scale_y, Vec3.scale_z,
    Scalar.half_real]
  ring

theorem spin_z (w : Vec3 ℝ) (r : Rotation ℝ) :
    (spin w r).z = (w.z * r.w + w.x * r.y - w.y * r.x) / 2 := by
  simp only [spin, ofVector, mul_z, Vec3.scale_x, Vec3.scale_y, Vec3.scale_z,
    Scalar.half_real]
  ring

/-- Turning within a turned frame is turning about the turned axis. -/
theorem mul_spin {a : Rotation ℝ} (ha : a.IsUnit) (w : Vec3 ℝ) (b : Rotation ℝ) :
    a * spin w b = spin (a.apply w) (a * b) := by
  unfold spin
  rw [← mul_assoc, ← ofVector_apply_mul ha, apply_scale, mul_assoc]

theorem spin_mul (w : Vec3 ℝ) (a b : Rotation ℝ) : spin w a * b = spin w (a * b) := mul_assoc _ a b

theorem spin_zero (r : Rotation ℝ) : spin .zero r = ⟨0, 0, 0, 0⟩ := by
  ext <;> simp only [spin_w, spin_x, spin_y, spin_z, Vec3.zero] <;> ring

theorem hasDeriv_const (r : Rotation ℝ) (p : ℝ) : HasDeriv (fun _ => r) ⟨0, 0, 0, 0⟩ p :=
  ⟨hasDerivAt_const p r.w, hasDerivAt_const p r.x, hasDerivAt_const p r.y, hasDerivAt_const p r.z⟩

theorem HasDeriv.mul_const {r : ℝ → Rotation ℝ} {r' : Rotation ℝ} {p : ℝ} (hr : HasDeriv r r' p)
    (b : Rotation ℝ) : HasDeriv (fun s => r s * b) (r' * b) p where
  w := (((hr.w.mul_const b.w).sub (hr.x.mul_const b.x)).sub (hr.y.mul_const b.y)).sub
    (hr.z.mul_const b.z)
  x := (((hr.w.mul_const b.x).add (hr.x.mul_const b.w)).add (hr.y.mul_const b.z)).sub
    (hr.z.mul_const b.y)
  y := (((hr.w.mul_const b.y).sub (hr.x.mul_const b.z)).add (hr.y.mul_const b.w)).add
    (hr.z.mul_const b.x)
  z := (((hr.w.mul_const b.z).add (hr.x.mul_const b.y)).sub (hr.y.mul_const b.x)).add
    (hr.z.mul_const b.w)

theorem HasDeriv.const_mul {r : ℝ → Rotation ℝ} {r' : Rotation ℝ} {p : ℝ} (a : Rotation ℝ)
    (hr : HasDeriv r r' p) : HasDeriv (fun s => a * r s) (a * r') p where
  w := (((hr.w.const_mul a.w).sub (hr.x.const_mul a.x)).sub (hr.y.const_mul a.y)).sub
    (hr.z.const_mul a.z)
  x := (((hr.x.const_mul a.w).add (hr.w.const_mul a.x)).add (hr.z.const_mul a.y)).sub
    (hr.y.const_mul a.z)
  y := (((hr.y.const_mul a.w).sub (hr.z.const_mul a.x)).add (hr.w.const_mul a.y)).add
    (hr.x.const_mul a.z)
  z := (((hr.z.const_mul a.w).add (hr.y.const_mul a.x)).sub (hr.x.const_mul a.y)).add
    (hr.w.const_mul a.z)

/-- **The matrix of a turning quaternion** changes by the cross product with the angular velocity. -/
theorem HasDeriv.toMatrix {r : ℝ → Rotation ℝ} {w : Vec3 ℝ} {p : ℝ}
    (hr : HasDeriv r (spin w (r p)) p) :
    Vec3.RowsHaveDeriv (fun s => (r s).toMatrix) (matrixMul w.crossMatrix (r p).toMatrix) p := by
  have hww := hr.w.mul hr.w
  have hxx := hr.x.mul hr.x
  have hyy := hr.y.mul hr.y
  have hzz := hr.z.mul hr.z
  have hxy := (hr.x.mul hr.y).mul_const (Scalar.two : ℝ)
  have hwz := (hr.w.mul hr.z).mul_const (Scalar.two : ℝ)
  have hwy := (hr.w.mul hr.y).mul_const (Scalar.two : ℝ)
  have hxz := (hr.x.mul hr.z).mul_const (Scalar.two : ℝ)
  have hyz := (hr.y.mul hr.z).mul_const (Scalar.two : ℝ)
  have hwx := (hr.w.mul hr.x).mul_const (Scalar.two : ℝ)
  refine ⟨⟨(((hww.add hxx).sub hyy).sub hzz).congr_deriv ?_, (hxy.sub hwz).congr_deriv ?_,
      (hwy.add hxz).congr_deriv ?_⟩,
    ⟨(hwz.add hxy).congr_deriv ?_, (((hww.sub hxx).add hyy).sub hzz).congr_deriv ?_,
      (hyz.sub hwx).congr_deriv ?_⟩,
    ⟨(hxz.sub hwy).congr_deriv ?_, (hwx.add hyz).congr_deriv ?_,
      (((hww.sub hxx).sub hyy).add hzz).congr_deriv ?_⟩⟩
  all_goals
    simp only [spin_w, spin_x, spin_y, spin_z, matrixMul, Vec3.crossMatrix, Vec3.map, Vec3.dot,
      Rotation.toMatrix, Scalar.two_real]
    ring

/-- A vector fixed in a turning frame moves by the cross product with the angular velocity. -/
theorem HasDeriv.apply {r : ℝ → Rotation ℝ} {w : Vec3 ℝ} {p : ℝ} (hr : HasDeriv r (spin w (r p)) p)
    (hu : ∀ s, (r s).IsUnit) (v : Vec3 ℝ) :
    Vec3.HasDeriv (fun s => (r s).apply v) (w.cross ((r p).apply v)) p := by
  have h := hr.toMatrix.mulVec_const v
  rw [Vec3.mulVec_crossMatrix_mul, ← apply_eq_mulVec (hu p)] at h
  simpa only [apply_eq_mulVec (hu _)] using h

/-- Turning about a unit axis, by an angle that grows with speed one. -/
theorem hasDeriv_ofAxisAngle (axis : Vec3 ℝ) (ha : axis.dot axis = 1) (p : ℝ) :
    HasDeriv (ofAxisAngle axis) (spin axis (ofAxisAngle axis p)) p := by
  have hhalf : HasDerivAt (fun s : ℝ => s / 2) (1 / 2) p := (hasDerivAt_id' p).div_const 2
  have hcos := hhalf.cos
  have hsin := hhalf.sin
  unfold Vec3.dot at ha
  refine ⟨hcos.congr_deriv ?_, (hsin.const_mul axis.x).congr_deriv ?_,
    (hsin.const_mul axis.y).congr_deriv ?_, (hsin.const_mul axis.z).congr_deriv ?_⟩
  all_goals
    simp only [spin_w, spin_x, spin_y, spin_z, ofAxisAngle, Vec3.scale_x, Vec3.scale_y,
      Vec3.scale_z, Scalar.cos_real, Scalar.sin_real, Scalar.two_real]
  · linear_combination Real.sin (p / 2) / 2 * ha
  · ring
  · ring
  · ring

end Rotation

/-! ## products of poses -/

namespace Pose

theorem mul_assoc {a b : Pose ℝ} (ha : a.rotation.IsUnit) (hb : b.rotation.IsUnit) (c : Pose ℝ) :
    a * b * c = a * (b * c) := by
  have hrotation := Rotation.mul_assoc a.rotation b.rotation c.rotation
  have hdisplacement : (a * b * c).displacement = (a * (b * c)).displacement := by
    simp only [mul_displacement, mul_rotation, Rotation.apply_mul ha hb, Rotation.apply_add,
      Vec3.add_assoc]
  exact congrArg₂ Pose.mk hrotation hdisplacement

theorem mul_one (a : Pose ℝ) : a * one = a := by
  have hdisplacement : a.displacement + a.rotation.apply .zero = a.displacement := by
    rw [Rotation.apply_zero, Vec3.add_zero]
  exact congrArg₂ Pose.mk (Rotation.mul_one a.rotation) hdisplacement

/-! ## twists -/

/-- The pose `t s` moves at `s = p` with a twist: it turns with angular velocity `w`, and its point
at the origin has velocity `v`. -/
structure HasTwist (t : ℝ → Pose ℝ) (v w : Vec3 ℝ) (p : ℝ) : Prop where
  isUnit : ∀ s, (t s).rotation.IsUnit
  turns : Rotation.HasDeriv (fun s => (t s).rotation) (Rotation.spin w (t p).rotation) p
  moves : Vec3.HasDeriv (fun s => (t s).displacement) (v + w.cross (t p).displacement) p

/-- What is fixed in a moving frame moves with the same twist. -/
theorem HasTwist.mul {t : ℝ → Pose ℝ} {v w : Vec3 ℝ} {p : ℝ} (h : HasTwist t v w p) {b : Pose ℝ}
    (hb : b.rotation.IsUnit) : HasTwist (fun s => t s * b) v w p where
  isUnit s := (h.isUnit s).mul hb
  turns := by
    have ht := h.turns.mul_const b.rotation
    rwa [Rotation.spin_mul] at ht
  moves := by
    have hd := h.moves.add (h.turns.apply h.isUnit b.displacement)
    rwa [Vec3.add_assoc, ← Vec3.cross_add] at hd

theorem hasTwist_revolute {a : Pose ℝ} (ha : a.rotation.IsUnit) {axis : Vec3 ℝ}
    (hx : axis.dot axis = 1) (p : ℝ) :
    HasTwist (fun s => a * ofRotation (.ofAxisAngle axis s))
      (a.displacement.cross (a.rotation.apply axis)) (a.rotation.apply axis) p where
  isUnit s := ha.mul (Rotation.isUnit_ofAxisAngle hx s)
  turns := by
    have ht := (Rotation.hasDeriv_ofAxisAngle axis hx p).const_mul a.rotation
    rwa [Rotation.mul_spin ha] at ht
  moves := by
    have hd : ∀ s, (a * ofRotation (.ofAxisAngle axis s)).displacement = a.displacement := by
      intro s
      rw [mul_displacement, ofRotation, Rotation.apply_zero, Vec3.add_zero]
    simp only [hd]
    rw [Vec3.cross_add_cross_swap]
    exact Vec3.hasDeriv_const _ p

theorem hasTwist_prismatic {a : Pose ℝ} (ha : a.rotation.IsUnit) (axis : Vec3 ℝ) (p : ℝ) :
    HasTwist (fun s => a * ofDisplacement (axis.scale s)) (a.rotation.apply axis) .zero p where
  isUnit s := ha.mul Rotation.isUnit_one
  turns := by
    have ht := (Rotation.hasDeriv_const (a.rotation * .one) p)
    rwa [← Rotation.spin_zero (a.rotation * .one)] at ht
  moves := by
    have hd := (Vec3.hasDeriv_const a.displacement p).add
      (Vec3.hasDeriv_scale (a.rotation.apply axis) p)
    simp only [← Rotation.apply_scale] at hd
    rw [Vec3.zero_cross]
    rwa [Vec3.zero_add, ← Vec3.add_zero (a.rotation.apply axis)] at hd

end Pose

end ArmServo
