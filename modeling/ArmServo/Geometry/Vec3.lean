import ArmServo.Scalar

/-!
# Vectors of space

Three components with the operations of rigid-body geometry.
-/

namespace ArmServo

structure Vec3 (α : Type) where
  x : α
  y : α
  z : α
deriving BEq, DecidableEq, Repr, Inhabited

namespace Vec3

variable {α : Type}

def map {β : Type} (f : α → β) (v : Vec3 α) : Vec3 β := ⟨f v.x, f v.y, f v.z⟩

def toList (v : Vec3 α) : List α := [v.x, v.y, v.z]

variable [Scalar α]

def zero : Vec3 α := ⟨0, 0, 0⟩

def unitZ : Vec3 α := ⟨0, 0, 1⟩

instance : Add (Vec3 α) := ⟨fun a b => ⟨a.x + b.x, a.y + b.y, a.z + b.z⟩⟩

instance : Sub (Vec3 α) := ⟨fun a b => ⟨a.x - b.x, a.y - b.y, a.z - b.z⟩⟩

instance : Neg (Vec3 α) := ⟨map (- ·)⟩

/-- Every component times `s`. -/
def scale (v : Vec3 α) (s : α) : Vec3 α := v.map (· * s)

/-- Every component divided by `s`. -/
def divide (v : Vec3 α) (s : α) : Vec3 α := v.map (· / s)

def cross (a b : Vec3 α) : Vec3 α :=
  ⟨a.y * b.z - a.z * b.y, a.z * b.x - a.x * b.z, a.x * b.y - a.y * b.x⟩

def dot (a b : Vec3 α) : α := a.x * b.x + a.y * b.y + a.z * b.z

def norm (v : Vec3 α) : α := Scalar.sqrt (v.dot v)

@[simp] theorem add_x (a b : Vec3 α) : (a + b).x = a.x + b.x := rfl
@[simp] theorem add_y (a b : Vec3 α) : (a + b).y = a.y + b.y := rfl
@[simp] theorem add_z (a b : Vec3 α) : (a + b).z = a.z + b.z := rfl
@[simp] theorem sub_x (a b : Vec3 α) : (a - b).x = a.x - b.x := rfl
@[simp] theorem sub_y (a b : Vec3 α) : (a - b).y = a.y - b.y := rfl
@[simp] theorem sub_z (a b : Vec3 α) : (a - b).z = a.z - b.z := rfl
@[simp] theorem scale_x (a : Vec3 α) (s : α) : (a.scale s).x = a.x * s := rfl
@[simp] theorem scale_y (a : Vec3 α) (s : α) : (a.scale s).y = a.y * s := rfl
@[simp] theorem scale_z (a : Vec3 α) (s : α) : (a.scale s).z = a.z * s := rfl
@[simp] theorem cross_x (a b : Vec3 α) : (a.cross b).x = a.y * b.z - a.z * b.y := rfl
@[simp] theorem cross_y (a b : Vec3 α) : (a.cross b).y = a.z * b.x - a.x * b.z := rfl
@[simp] theorem cross_z (a b : Vec3 α) : (a.cross b).z = a.x * b.y - a.y * b.x := rfl

end Vec3

end ArmServo
