import ArmServo.Geometry.Vec3

/-!
# Rotations and poses

A rotation of space as a quaternion. Products and actions never renormalise: a rotation built from
an angle about a unit axis has norm one, and products keep the norm. A pose is a rigid placement:
first a rotation, then a displacement.
-/

namespace ArmServo

structure Rotation (α : Type) where
  w : α
  x : α
  y : α
  z : α
deriving BEq, DecidableEq, Repr, Inhabited

namespace Rotation

variable {α : Type}

/-- The imaginary part. -/
def vector (r : Rotation α) : Vec3 α := ⟨r.x, r.y, r.z⟩

variable [Scalar α]

def one : Rotation α := ⟨1, 0, 0, 0⟩

/-- Turning by `angle` about `axis`, which is taken to have length one. -/
def ofAxisAngle (axis : Vec3 α) (angle : α) : Rotation α :=
  let h := angle / Scalar.two
  let v := axis.scale (Scalar.sin h)
  ⟨Scalar.cos h, v.x, v.y, v.z⟩

/-- Turning about the fixed axes x, y, z in this order, by roll, pitch and yaw. -/
def ofRollPitchYaw (rpy : Vec3 α) : Rotation α :=
  let r := rpy.map (· * Scalar.half)
  let sr := Scalar.sin r.x
  let cr := Scalar.cos r.x
  let sp := Scalar.sin r.y
  let cp := Scalar.cos r.y
  let sy := Scalar.sin r.z
  let cy := Scalar.cos r.z
  ⟨cr * cp * cy + sr * sp * sy,
   sr * cp * cy - cr * sp * sy,
   cr * sp * cy + sr * cp * sy,
   cr * cp * sy - sr * sp * cy⟩

/-- The product of quaternions: first `b`, then `a`. -/
def mul (a b : Rotation α) : Rotation α :=
  ⟨a.w * b.w - a.x * b.x - a.y * b.y - a.z * b.z,
   a.w * b.x + a.x * b.w + a.y * b.z - a.z * b.y,
   a.w * b.y - a.x * b.z + a.y * b.w + a.z * b.x,
   a.w * b.z + a.x * b.y - a.y * b.x + a.z * b.w⟩

instance : Mul (Rotation α) := ⟨mul⟩

@[simp] theorem mul_w (a b : Rotation α) :
    (a * b).w = a.w * b.w - a.x * b.x - a.y * b.y - a.z * b.z := rfl
@[simp] theorem mul_x (a b : Rotation α) :
    (a * b).x = a.w * b.x + a.x * b.w + a.y * b.z - a.z * b.y := rfl
@[simp] theorem mul_y (a b : Rotation α) :
    (a * b).y = a.w * b.y - a.x * b.z + a.y * b.w + a.z * b.x := rfl
@[simp] theorem mul_z (a b : Rotation α) :
    (a * b).z = a.w * b.z + a.x * b.y - a.y * b.x + a.z * b.w := rfl

/-- The conjugate, which undoes a rotation of norm one. -/
def inverse (r : Rotation α) : Rotation α := ⟨r.w, -r.x, -r.y, -r.z⟩

/-- The rotated vector, by two cross products. -/
def apply (r : Rotation α) (v : Vec3 α) : Vec3 α :=
  let t := (r.vector.cross v).scale Scalar.two
  t.scale r.w + r.vector.cross t + v

/-- The rotation matrix by rows. -/
def toMatrix (r : Rotation α) : Vec3 (Vec3 α) :=
  let ww := r.w * r.w
  let xx := r.x * r.x
  let yy := r.y * r.y
  let zz := r.z * r.z
  let xy := r.x * r.y * Scalar.two
  let wz := r.w * r.z * Scalar.two
  let wy := r.w * r.y * Scalar.two
  let xz := r.x * r.z * Scalar.two
  let yz := r.y * r.z * Scalar.two
  let wx := r.w * r.x * Scalar.two
  ⟨⟨ww + xx - yy - zz, xy - wz, wy + xz⟩,
   ⟨wz + xy, ww - xx + yy - zz, yz - wx⟩,
   ⟨xz - wy, wx + yz, ww - xx - yy + zz⟩⟩

end Rotation

structure Pose (α : Type) where
  rotation : Rotation α
  displacement : Vec3 α
deriving BEq, DecidableEq, Repr, Inhabited

namespace Pose

variable {α : Type} [Scalar α]

def one : Pose α := ⟨.one, .zero⟩

/-- First `b`, then `a`. -/
def mul (a b : Pose α) : Pose α :=
  ⟨a.rotation * b.rotation, a.displacement + a.rotation.apply b.displacement⟩

instance : Mul (Pose α) := ⟨mul⟩

def ofRotation (r : Rotation α) : Pose α := ⟨r, .zero⟩

def ofDisplacement (t : Vec3 α) : Pose α := ⟨.one, t⟩

/-- The placement at `xyz`, turned by roll, pitch and yaw. -/
def ofXyzRpy (xyz rpy : Vec3 α) : Pose α := ⟨.ofRollPitchYaw rpy, xyz⟩

@[simp] theorem mul_rotation (a b : Pose α) : (a * b).rotation = a.rotation * b.rotation := rfl

@[simp] theorem mul_displacement (a b : Pose α) :
    (a * b).displacement = a.displacement + a.rotation.apply b.displacement := rfl

end Pose

end ArmServo
