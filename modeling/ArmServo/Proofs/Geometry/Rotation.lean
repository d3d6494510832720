import Mathlib
import ArmServo.Geometry.Frames
import ArmServo.Proofs.Scalar.Real

/-!
# The algebra of unit quaternions

Quaternions of norm one are closed under products, and what is built from angles has norm one. Such a
quaternion acts on vectors as its matrix, and turns the axis of a rotation with it
(`ofVector_apply_mul`): that is why the axis of a joint may be taken before or after the motion of the
joint, and why products act one factor after the other (`apply_mul`).
-/

namespace ArmServo

theorem Vec3.norm_eq_one {v : Vec3 ℝ} (h : v.dot v = 1) : v.norm = 1 := by
  unfold norm
  rw [h, Scalar.sqrt_real, Real.sqrt_one]

attribute [ext] Vec3 Rotation

namespace Rotation

/-- The square of the norm. -/
noncomputable def normSq (r : Rotation ℝ) : ℝ := r.w * r.w + r.x * r.x + r.y * r.y + r.z * r.z

/-- The quaternion has norm one. -/
def IsUnit (r : Rotation ℝ) : Prop := r.normSq = 1

/-! ## norms -/

theorem normSq_mul (a b : Rotation ℝ) : (a * b).normSq = a.normSq * b.normSq := by
  unfold normSq
  rw [mul_w, mul_x, mul_y, mul_z]
  ring

theorem IsUnit.mul {a b : Rotation ℝ} (ha : a.IsUnit) (hb : b.IsUnit) : (a * b).IsUnit := by
  unfold IsUnit at *
  rw [normSq_mul, ha, hb, mul_one]

theorem isUnit_one : (one : Rotation ℝ).IsUnit := by
  unfold IsUnit normSq one
  norm_num

theorem isUnit_ofAxisAngle {axis : Vec3 ℝ} (ha : axis.dot axis = 1) (angle : ℝ) :
    (ofAxisAngle axis angle).IsUnit := by
  unfold IsUnit normSq ofAxisAngle
  unfold Vec3.dot at ha
  simp only [Scalar.cos_real, Scalar.sin_real, Scalar.two_real, Vec3.scale_x, Vec3.scale_y,
    Vec3.scale_z]
  linear_combination Real.sin (angle / 2) ^ 2 * ha + Real.cos_sq_add_sin_sq (angle / 2)

theorem isUnit_ofRollPitchYaw (rpy : Vec3 ℝ) : (ofRollPitchYaw rpy).IsUnit := by
  unfold IsUnit normSq ofRollPitchYaw
  simp only [Scalar.cos_real, Scalar.sin_real, Scalar.half_real, Vec3.map]
  have hr := Real.cos_sq_add_sin_sq (rpy.x * (1 / 2))
  have hp := Real.cos_sq_add_sin_sq (rpy.y * (1 / 2))
  have hy := Real.cos_sq_add_sin_sq (rpy.z * (1 / 2))
  generalize Real.cos (rpy.x * (1 / 2)) = cr at *
  generalize Real.sin (rpy.x * (1 / 2)) = sr at *
  generalize Real.cos (rpy.y * (1 / 2)) = cp at *
  generalize Real.sin (rpy.y * (1 / 2)) = sp at *
  generalize Real.cos (rpy.z * (1 / 2)) = cy at *
  generalize Real.sin (rpy.z * (1 / 2)) = sy at *
  calc _ = (cr ^ 2 + sr ^ 2) * (cp ^ 2 + sp ^ 2) * (cy ^ 2 + sy ^ 2) := by ring
    _ = 1 := by rw [hr, hp, hy]; norm_num

/-! ## products -/

theorem mul_assoc (a b c : Rotation ℝ) : a * b * c = a * (b * c) := by
  ext <;> simp only [mul_w, mul_x, mul_y, mul_z] <;> ring

/-- The quaternion without real part. -/
def ofVector (v : Vec3 ℝ) : Rotation ℝ := ⟨0, v.x, v.y, v.z⟩

/-- A rotation after another one about `v` is a rotation about the rotated `v` after the first one. -/
theorem ofVector_apply_mul {r : Rotation ℝ} (hr : r.IsUnit) (v : Vec3 ℝ) :
    ofVector (r.apply v) * r = r * ofVector v := by
  unfold IsUnit normSq at hr
  ext <;> simp only [mul_w, mul_x, mul_y, mul_z, ofVector, apply, vector, Vec3.add_x, Vec3.add_y,
    Vec3.add_z, Vec3.scale_x, Vec3.scale_y, Vec3.scale_z, Vec3.cross_x, Vec3.cross_y, Vec3.cross_z,
    Scalar.two_real]
  · ring
  · linear_combination 2 * (r.y * v.z - r.z * v.y) * hr
  · linear_combination 2 * (r.z * v.x - r.x * v.z) * hr
  · linear_combination 2 * (r.x * v.y - r.y * v.x) * hr

theorem mul_inverse {r : Rotation ℝ} (hr : r.IsUnit) : r * r.inverse = one := by
  unfold IsUnit normSq at hr
  ext <;> simp only [mul_w, mul_x, mul_y, mul_z, inverse, one]
  · linear_combination hr
  · ring
  · ring
  · ring

theorem mul_one (r : Rotation ℝ) : r * one = r := by
  ext <;> simp only [mul_w, mul_x, mul_y, mul_z, one] <;> ring

theorem mul_right_cancel {a b r : Rotation ℝ} (hr : r.IsUnit) (h : a * r = b * r) : a = b := by
  have h' := congrArg (· * r.inverse) h
  simpa only [mul_assoc, mul_inverse hr, mul_one] using h'

theorem ofVector_injective {v w : Vec3 ℝ} (h : ofVector v = ofVector w) : v = w := by
  cases v
  cases w
  cases h
  rfl

/-- A product acts like its factors, one after the other. -/
theorem apply_mul {a b : Rotation ℝ} (ha : a.IsUnit) (hb : b.IsUnit) (v : Vec3 ℝ) :
    (a * b).apply v = a.apply (b.apply v) := by
  have hproduct := ofVector_apply_mul (ha.mul hb) v
  have hfactors : ofVector (a.apply (b.apply v)) * (a * b) = a * b * ofVector v := by
    rw [← mul_assoc, ofVector_apply_mul ha, mul_assoc, ofVector_apply_mul hb, mul_assoc]
  exact ofVector_injective (mul_right_cancel (ha.mul hb) (hproduct.trans hfactors.symm))

theorem apply_add (r : Rotation ℝ) (v w : Vec3 ℝ) : r.apply (v + w) = r.apply v + r.apply w := by
  ext <;> simp only [apply, vector, Vec3.add_x, Vec3.add_y, Vec3.add_z, Vec3.scale_x, Vec3.scale_y,
    Vec3.scale_z, Vec3.cross_x, Vec3.cross_y, Vec3.cross_z] <;> ring

theorem apply_scale (r : Rotation ℝ) (v : Vec3 ℝ) (s : ℝ) :
    r.apply (v.scale s) = (r.apply v).scale s := by
  ext <;> simp only [apply, vector, Vec3.add_x, Vec3.add_y, Vec3.add_z, Vec3.scale_x, Vec3.scale_y,
    Vec3.scale_z, Vec3.cross_x, Vec3.cross_y, Vec3.cross_z] <;> ring

theorem apply_zero (r : Rotation ℝ) : r.apply .zero = .zero := by
  ext <;> simp only [apply, vector, Vec3.zero, Vec3.add_x, Vec3.add_y, Vec3.add_z, Vec3.scale_x,
    Vec3.scale_y, Vec3.scale_z, Vec3.cross_x, Vec3.cross_y, Vec3.cross_z] <;> ring

/-! ## matrices -/

/-- The product of a matrix by rows with a vector. -/
def mulVec {α : Type} [Scalar α] (m : Vec3 (Vec3 α)) (v : Vec3 α) : Vec3 α :=
  ⟨m.x.dot v, m.y.dot v, m.z.dot v⟩

/-- A unit quaternion acts as its matrix. -/
theorem apply_eq_mulVec {r : Rotation ℝ} (hr : r.IsUnit) (v : Vec3 ℝ) :
    r.apply v = mulVec r.toMatrix v := by
  unfold IsUnit normSq at hr
  ext <;> simp only [mulVec, toMatrix, Vec3.dot, apply, vector, Vec3.add_x, Vec3.add_y,
    Vec3.add_z, Vec3.scale_x, Vec3.scale_y, Vec3.scale_z, Vec3.cross_x, Vec3.cross_y, Vec3.cross_z,
    Scalar.two_real]
  · linear_combination -v.x * hr
  · linear_combination -v.y * hr
  · linear_combination -v.z * hr

end Rotation

end ArmServo
