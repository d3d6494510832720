import ArmServo.Geometry.Axes

/-!
# Changing the frame of expression

A six-vector expressed in one frame is expressed in another by rotating its linear and its angular
part. Nothing is shifted: this is not the adjoint action. A six by six tensor is rotated on its
two diagonal blocks, and the blocks that couple the linear with the angular part are dropped.
-/

namespace ArmServo

/-- A six by six tensor by rows. -/
abbrev Tensor (α : Type) := Axes (Axes α)

variable {α : Type} [Scalar α]

namespace Rotation

def rotate (r : Rotation α) (v : Axes α) : Axes α :=
  .ofParts (r.apply v.linear) (r.apply v.angular)

def inverseRotate (r : Rotation α) (v : Axes α) : Axes α := r.inverse.rotate v

/-- The product of three by three matrices by rows, sums from the left. -/
def matrixMul (a b : Vec3 (Vec3 α)) : Vec3 (Vec3 α) :=
  a.map fun row =>
    ⟨row.dot ⟨b.x.x, b.y.x, b.z.x⟩, row.dot ⟨b.x.y, b.y.y, b.z.y⟩, row.dot ⟨b.x.z, b.y.z, b.z.z⟩⟩

def transpose (a : Vec3 (Vec3 α)) : Vec3 (Vec3 α) :=
  ⟨⟨a.x.x, a.y.x, a.z.x⟩, ⟨a.x.y, a.y.y, a.z.y⟩, ⟨a.x.z, a.y.z, a.z.z⟩⟩

/-- `R K Rᵀ` for a three by three block. -/
def rotateBlock (r : Rotation α) (k : Vec3 (Vec3 α)) : Vec3 (Vec3 α) :=
  matrixMul (matrixMul r.toMatrix k) (transpose r.toMatrix)

/-- Both diagonal blocks rotated, the coupling blocks zero. -/
def rotateTensor (r : Rotation α) (k : Tensor α) : Tensor α :=
  .ofParts
    ((r.rotateBlock (k.linear.map Axes.linear)).map (Axes.ofParts · .zero))
    ((r.rotateBlock (k.angular.map Axes.angular)).map (Axes.ofParts .zero ·))

end Rotation

end ArmServo
