import Mathlib
import ArmServo.Proofs.Geometry.Rotation

/-!
# Changes of frame

What is true of a unit quaternion is true of the change of frame it makes: products and lengths are
kept, cross products are turned with their factors, and the inverse leads back. Vectors are rotated
by the quaternion and blocks of a tensor by its matrix on both sides; both are the same change
(`mulVec_rotateBlock`), so that products, quadratic forms, symmetry and positive definiteness of
blocks do not depend on the frame.

Main statements: `rotateTensor_mulVec_rotate`, `isSymmetric_rotateBlock_iff`,
`isPosDef_rotateBlock_iff`.
-/

namespace ArmServo

namespace Rotation

/-! ## the way back -/

theorem IsUnit.inverse {r : Rotation ℝ} (hr : r.IsUnit) : r.inverse.IsUnit := by
  unfold IsUnit normSq at *
  unfold Rotation.inverse
  linear_combination hr

theorem inverse_mul {r : Rotation ℝ} (hr : r.IsUnit) : r.inverse * r = one := by
  unfold IsUnit normSq at hr
  ext <;> simp only [mul_w, mul_x, mul_y, mul_z, inverse, one]
  · linear_combination hr
  · ring
  · ring
  · ring

theorem one_apply (v : Vec3 ℝ) : (one : Rotation ℝ).apply v = v := by
  ext <;> simp only [apply, vector, one, Vec3.add_x, Vec3.add_y, Vec3.add_z, Vec3.scale_x,
    Vec3.scale_y, Vec3.scale_z, Vec3.cross_x, Vec3.cross_y, Vec3.cross_z] <;> ring

theorem inverse_apply_apply {r : Rotation ℝ} (hr : r.IsUnit) (v : Vec3 ℝ) :
    r.inverse.apply (r.apply v) = v := by
  rw [← apply_mul hr.inverse hr, inverse_mul hr, one_apply]

theorem apply_inverse_apply {r : Rotation ℝ} (hr : r.IsUnit) (v : Vec3 ℝ) :
    r.apply (r.inverse.apply v) = v := by
  rw [← apply_mul hr hr.inverse, mul_inverse hr, one_apply]

theorem apply_sub (r : Rotation ℝ) (v w : Vec3 ℝ) : r.apply (v - w) = r.apply v - r.apply w := by
  ext <;> simp only [apply, vector, Vec3.add_x, Vec3.add_y, Vec3.add_z, Vec3.sub_x, Vec3.sub_y,
    Vec3.sub_z, Vec3.scale_x, Vec3.scale_y, Vec3.scale_z, Vec3.cross_x, Vec3.cross_y,
    Vec3.cross_z] <;> ring

theorem apply_eq_zero_iff {r : Rotation ℝ} (hr : r.IsUnit) {v : Vec3 ℝ} :
    r.apply v = .zero ↔ v = .zero := by
  constructor
  · intro h
    rw [← inverse_apply_apply hr v, h, apply_zero]
  · rintro rfl
    exact apply_zero r

/-! ## products of vectors -/

/-- What a quaternion does to a product, up to its norm: the rest is a product of cross products with
its imaginary part. -/
theorem apply_dot_apply_of_normSq (r : Rotation ℝ) (v w : Vec3 ℝ) :
    (r.apply v).dot (r.apply w) =
      v.dot w + 4 * (r.normSq - 1) * (r.vector.cross v).dot (r.vector.cross w) := by
  simp only [normSq, Vec3.dot, apply, vector, Vec3.add_x, Vec3.add_y, Vec3.add_z, Vec3.scale_x,
    Vec3.scale_y, Vec3.scale_z, Vec3.cross_x, Vec3.cross_y, Vec3.cross_z, Scalar.two_real]
  ring

/-- **A unit quaternion keeps products.** -/
theorem apply_dot_apply {r : Rotation ℝ} (hr : r.IsUnit) (v w : Vec3 ℝ) :
    (r.apply v).dot (r.apply w) = v.dot w := by
  rw [apply_dot_apply_of_normSq, show r.normSq = 1 from hr]
  ring

theorem norm_apply {r : Rotation ℝ} (hr : r.IsUnit) (v : Vec3 ℝ) : (r.apply v).norm = v.norm := by
  unfold Vec3.norm
  rw [apply_dot_apply hr]

/-- Cross products are turned with their factors, up to the norm: the rest is along the imaginary
part. -/
theorem apply_cross_of_normSq (r : Rotation ℝ) (v w : Vec3 ℝ) :
    (r.apply v).cross (r.apply w) =
      r.apply (v.cross w) + r.vector.scale (4 * (r.normSq - 1) * r.vector.dot (v.cross w)) := by
  ext <;> simp only [normSq, Vec3.dot, apply, vector, Vec3.add_x, Vec3.add_y, Vec3.add_z,
    Vec3.scale_x, Vec3.scale_y, Vec3.scale_z, Vec3.cross_x, Vec3.cross_y, Vec3.cross_z,
    Scalar.two_real] <;> ring

theorem apply_cross {r : Rotation ℝ} (hr : r.IsUnit) (v w : Vec3 ℝ) :
    r.apply (v.cross w) = (r.apply v).cross (r.apply w) := by
  rw [apply_cross_of_normSq, show r.normSq = 1 from hr]
  ext <;> simp only [Vec3.add_x, Vec3.add_y, Vec3.add_z, Vec3.scale_x, Vec3.scale_y,
    Vec3.scale_z] <;> ring

/-! ## blocks of a tensor -/

theorem transpose_toMatrix (r : Rotation ℝ) : transpose r.toMatrix = r.inverse.toMatrix := by
  ext <;> simp only [transpose, toMatrix, inverse] <;> ring

theorem mulVec_matrixMul (a b : Vec3 (Vec3 ℝ)) (v : Vec3 ℝ) :
    mulVec (matrixMul a b) v = mulVec a (mulVec b v) := by
  ext <;> simp only [mulVec, matrixMul, Vec3.map, Vec3.dot] <;> ring

/-- **Rotated blocks act on rotated vectors** as the blocks act on the vectors. -/
theorem mulVec_rotateBlock {r : Rotation ℝ} (hr : r.IsUnit) (k : Vec3 (Vec3 ℝ)) (v : Vec3 ℝ) :
    mulVec (r.rotateBlock k) (r.apply v) = r.apply (mulVec k v) := by
  rw [rotateBlock, mulVec_matrixMul, mulVec_matrixMul, transpose_toMatrix,
    ← apply_eq_mulVec hr.inverse, inverse_apply_apply hr, ← apply_eq_mulVec hr]

theorem ext_mulVec {k l : Vec3 (Vec3 ℝ)} (h : ∀ v, mulVec k v = mulVec l v) : k = l := by
  have hx := h ⟨1, 0, 0⟩
  have hy := h ⟨0, 1, 0⟩
  have hz := h ⟨0, 0, 1⟩
  simp [mulVec, Vec3.dot] at hx hy hz
  ext
  exacts [hx.1, hy.1, hz.1, hx.2.1, hy.2.1, hz.2.1, hx.2.2, hy.2.2, hz.2.2]

theorem rotateBlock_injective {r : Rotation ℝ} (hr : r.IsUnit) :
    Function.Injective (r.rotateBlock (α := ℝ)) := by
  intro k l h
  refine ext_mulVec fun v => ?_
  rw [← inverse_apply_apply hr (mulVec k v), ← mulVec_rotateBlock hr, h, mulVec_rotateBlock hr,
    inverse_apply_apply hr]

theorem transpose_matrixMul (a b : Vec3 (Vec3 ℝ)) :
    transpose (matrixMul a b) = matrixMul (transpose b) (transpose a) := by
  ext <;> simp only [transpose, matrixMul, Vec3.map, Vec3.dot] <;> ring

theorem matrixMul_assoc (a b c : Vec3 (Vec3 ℝ)) :
    matrixMul (matrixMul a b) c = matrixMul a (matrixMul b c) :=
  ext_mulVec fun v => by simp only [mulVec_matrixMul]

theorem transpose_rotateBlock (r : Rotation ℝ) (k : Vec3 (Vec3 ℝ)) :
    transpose (r.rotateBlock k) = r.rotateBlock (transpose k) := by
  unfold rotateBlock
  rw [transpose_matrixMul, transpose_matrixMul, ← matrixMul_assoc]
  rfl

/-- The block is its own transpose. -/
def IsSymmetric (k : Vec3 (Vec3 ℝ)) : Prop := transpose k = k

/-- The quadratic form of the block is positive. -/
def IsPosDef (k : Vec3 (Vec3 ℝ)) : Prop := ∀ v : Vec3 ℝ, v ≠ .zero → 0 < v.dot (mulVec k v)

theorem isSymmetric_rotateBlock_iff {r : Rotation ℝ} (hr : r.IsUnit) {k : Vec3 (Vec3 ℝ)} :
    IsSymmetric (r.rotateBlock k) ↔ IsSymmetric k := by
  unfold IsSymmetric
  rw [transpose_rotateBlock, (rotateBlock_injective hr).eq_iff]

/-- The quadratic form of a block does not depend on the frame. -/
theorem dot_mulVec_rotateBlock {r : Rotation ℝ} (hr : r.IsUnit) (k : Vec3 (Vec3 ℝ)) (v : Vec3 ℝ) :
    (r.apply v).dot (mulVec (r.rotateBlock k) (r.apply v)) = v.dot (mulVec k v) := by
  rw [mulVec_rotateBlock hr, apply_dot_apply hr]

theorem isPosDef_rotateBlock_iff {r : Rotation ℝ} (hr : r.IsUnit) {k : Vec3 (Vec3 ℝ)} :
    IsPosDef (r.rotateBlock k) ↔ IsPosDef k := by
  constructor
  · intro h v hv
    rw [← dot_mulVec_rotateBlock hr]
    exact h (r.apply v) fun hzero => hv ((apply_eq_zero_iff hr).mp hzero)
  · intro h w hw
    -- every vector is a rotated one
    rw [← apply_inverse_apply hr w, dot_mulVec_rotateBlock hr]
    exact h _ fun hzero => hw ((apply_eq_zero_iff hr.inverse).mp hzero)

end Rotation

/-! ## six-vectors -/

theorem Axes.dot_eq_parts (v w : Axes ℝ) :
    v.dot w = v.linear.dot w.linear + v.angular.dot w.angular := by
  simp only [Axes.dot, Axes.zipWith, Axes.toList, List.foldl_cons, List.foldl_nil, Axes.linear,
    Axes.angular, Vec3.dot]
  ring

namespace Rotation

theorem inverseRotate_rotate {r : Rotation ℝ} (hr : r.IsUnit) (v : Axes ℝ) :
    r.inverseRotate (r.rotate v) = v := by
  unfold inverseRotate rotate
  rw [Axes.linear_ofParts, Axes.angular_ofParts, inverse_apply_apply hr, inverse_apply_apply hr,
    Axes.ofParts_linear_angular]

theorem rotate_inverseRotate {r : Rotation ℝ} (hr : r.IsUnit) (v : Axes ℝ) :
    r.rotate (r.inverseRotate v) = v := by
  unfold inverseRotate rotate
  rw [Axes.linear_ofParts, Axes.angular_ofParts, apply_inverse_apply hr, apply_inverse_apply hr,
    Axes.ofParts_linear_angular]

theorem rotate_dot_rotate {r : Rotation ℝ} (hr : r.IsUnit) (v w : Axes ℝ) :
    (r.rotate v).dot (r.rotate w) = v.dot w := by
  rw [Axes.dot_eq_parts, Axes.dot_eq_parts v w]
  exact congrArg₂ (· + ·) (apply_dot_apply hr _ _) (apply_dot_apply hr _ _)

end Rotation

/-! ## tensors -/

namespace Tensor

variable {α : Type} [Scalar α]

/-- The product of a tensor with a six-vector. -/
def mulVec (k : Tensor α) (v : Axes α) : Axes α := k.map (·.dot v)

omit [Scalar α] in
/-- What the tensor makes of linear parts, in the linear part. -/
def linearBlock (k : Tensor α) : Vec3 (Vec3 α) := k.linear.map Axes.linear

/-- What the tensor makes of angular parts, in the angular part. -/
def angularBlock (k : Tensor α) : Vec3 (Vec3 α) := k.angular.map Axes.angular

/-- The tensor of two diagonal blocks, without coupling between them. -/
def ofBlocks (a b : Vec3 (Vec3 α)) : Tensor α :=
  .ofParts (a.map (Axes.ofParts · .zero)) (b.map (Axes.ofParts .zero ·))

/-- The tensor with its coupling blocks replaced by zero. -/
def uncoupled (k : Tensor α) : Tensor α := ofBlocks k.linearBlock k.angularBlock

theorem mulVec_ofBlocks (a b : Vec3 (Vec3 ℝ)) (v : Axes ℝ) :
    (ofBlocks a b).mulVec v =
      .ofParts (Rotation.mulVec a v.linear) (Rotation.mulVec b v.angular) := by
  have hlinear : ∀ u : Vec3 ℝ, (Axes.ofParts u .zero).dot v = u.dot v.linear := by
    intro u
    rw [Axes.dot_eq_parts]
    simp [Vec3.dot, Vec3.zero]
  have hangular : ∀ u : Vec3 ℝ, (Axes.ofParts .zero u).dot v = u.dot v.angular := by
    intro u
    rw [Axes.dot_eq_parts]
    simp [Vec3.dot, Vec3.zero]
  simp only [mulVec, ofBlocks, Axes.map, Axes.ofParts, Vec3.map, Rotation.mulVec] at *
  simp only [hlinear, hangular]

end Tensor

namespace Rotation

/-- **Tensors and six-vectors change their frame alike**, up to the coupling that is dropped. -/
theorem rotateTensor_mulVec_rotate {r : Rotation ℝ} (hr : r.IsUnit) (k : Tensor ℝ) (v : Axes ℝ) :
    (r.rotateTensor k).mulVec (r.rotate v) = r.rotate (k.uncoupled.mulVec v) := by
  have hblocks : r.rotateTensor k =
      .ofBlocks (r.rotateBlock k.linearBlock) (r.rotateBlock k.angularBlock) := rfl
  rw [hblocks, Tensor.mulVec_ofBlocks, Tensor.uncoupled, Tensor.mulVec_ofBlocks]
  unfold rotate
  rw [Axes.linear_ofParts, Axes.angular_ofParts, mulVec_rotateBlock hr, mulVec_rotateBlock hr]
  rfl

end Rotation

end ArmServo
