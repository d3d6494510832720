import ArmServo.Geometry.Rotation

/-!
# The six Cartesian axes

Three linear axes and three angular ones. An error, a velocity, a wrench and a set of gains all have
one value per axis; `Axes` is that shape, and a six by six tensor has one row of it per axis.
-/

namespace ArmServo

/-- A Cartesian axis, in the order of components of a six-vector. -/
inductive Axis where
  | transX
  | transY
  | transZ
  | rotX
  | rotY
  | rotZ
deriving DecidableEq, Repr, Inhabited

namespace Axis

def all : List Axis := [transX, transY, transZ, rotX, rotY, rotZ]

def name : Axis → String
  | transX => "trans_x"
  | transY => "trans_y"
  | transZ => "trans_z"
  | rotX => "rot_x"
  | rotY => "rot_y"
  | rotZ => "rot_z"

/-- Where the axis stands among the components of a six-vector. -/
def position : Axis → Fin 6
  | transX => 0
  | transY => 1
  | transZ => 2
  | rotX => 3
  | rotY => 4
  | rotZ => 5

theorem exists_position (i : Fin 6) : ∃ k : Axis, k.position = i :=
  match i with
  | 0 => ⟨transX, rfl⟩
  | 1 => ⟨transY, rfl⟩
  | 2 => ⟨transZ, rfl⟩
  | 3 => ⟨rotX, rfl⟩
  | 4 => ⟨rotY, rfl⟩
  | 5 => ⟨rotZ, rfl⟩

end Axis

/-- One value per Cartesian axis. -/
structure Axes (β : Type) where
  transX : β
  transY : β
  transZ : β
  rotX : β
  rotY : β
  rotZ : β
deriving BEq, DecidableEq, Repr, Inhabited

namespace Axes

variable {β γ δ : Type}

def get (v : Axes β) : Axis → β
  | .transX => v.transX
  | .transY => v.transY
  | .transZ => v.transZ
  | .rotX => v.rotX
  | .rotY => v.rotY
  | .rotZ => v.rotZ

def ofFn (f : Axis → β) : Axes β :=
  ⟨f .transX, f .transY, f .transZ, f .rotX, f .rotY, f .rotZ⟩

@[simp] theorem get_ofFn (f : Axis → β) (k : Axis) : (ofFn f).get k = f k := by cases k <;> rfl

theorem ext_get {v w : Axes β} (h : ∀ k, v.get k = w.get k) : v = w := by
  cases v; cases w
  have h1 := h .transX; have h2 := h .transY; have h3 := h .transZ
  have h4 := h .rotX; have h5 := h .rotY; have h6 := h .rotZ
  simp only [get] at h1 h2 h3 h4 h5 h6
  simp [h1, h2, h3, h4, h5, h6]

/-- The same value on the linear axes and another on the angular ones. -/
def ofKinds (trans rot : β) : Axes β := ⟨trans, trans, trans, rot, rot, rot⟩

/-- The same value on every axis. -/
def uniform (b : β) : Axes β := ofKinds b b

@[simp] theorem get_uniform (b : β) (k : Axis) : (uniform b).get k = b := by cases k <;> rfl

/-- The component at a position. -/
def component (v : Axes β) (i : Fin 6) : β :=
  #v[v.transX, v.transY, v.transZ, v.rotX, v.rotY, v.rotZ][i]

/-- The six-vector of given components. -/
def ofComponents (f : Fin 6 → β) : Axes β := ⟨f 0, f 1, f 2, f 3, f 4, f 5⟩

@[simp] theorem component_position (v : Axes β) (k : Axis) : v.component k.position = v.get k := by
  cases k <;> rfl

@[simp] theorem get_ofComponents (f : Fin 6 → β) (k : Axis) :
    (ofComponents f).get k = f k.position := by
  cases k <;> rfl

def map (f : β → γ) (v : Axes β) : Axes γ :=
  ⟨f v.transX, f v.transY, f v.transZ, f v.rotX, f v.rotY, f v.rotZ⟩

def zipWith (f : β → γ → δ) (v : Axes β) (w : Axes γ) : Axes δ :=
  ⟨f v.transX w.transX, f v.transY w.transY, f v.transZ w.transZ,
   f v.rotX w.rotX, f v.rotY w.rotY, f v.rotZ w.rotZ⟩

/-- All values, if there is one on every axis. -/
def sequence (v : Axes (Option β)) : Option (Axes β) :=
  match v with
  | ⟨some a, some b, some c, some d, some e, some f⟩ => some ⟨a, b, c, d, e, f⟩
  | _ => none

def toList (v : Axes β) : List β := [v.transX, v.transY, v.transZ, v.rotX, v.rotY, v.rotZ]

/-- Six values in the order of the axes; anything else is no six-vector. -/
def ofList? : List β → Option (Axes β)
  | [a, b, c, d, e, f] => some ⟨a, b, c, d, e, f⟩
  | _ => none

def linear (v : Axes β) : Vec3 β := ⟨v.transX, v.transY, v.transZ⟩

def angular (v : Axes β) : Vec3 β := ⟨v.rotX, v.rotY, v.rotZ⟩

def ofParts (linear angular : Vec3 β) : Axes β :=
  ⟨linear.x, linear.y, linear.z, angular.x, angular.y, angular.z⟩

@[simp] theorem linear_ofParts (a b : Vec3 β) : (ofParts a b).linear = a := rfl

@[simp] theorem angular_ofParts (a b : Vec3 β) : (ofParts a b).angular = b := rfl

@[simp] theorem ofParts_linear_angular (v : Axes β) : ofParts v.linear v.angular = v := rfl

variable {α : Type} [Scalar α]

def zero : Axes α := uniform 0

@[simp] theorem get_zero (k : Axis) : (zero : Axes α).get k = 0 := get_uniform ..

/-- The sum of products of components, from the left and starting from zero. -/
def dot (v w : Axes α) : α := (zipWith (· * ·) v w).toList.foldl (· + ·) 0

def isFinite (v : Axes α) : Bool := v.toList.all Scalar.isFinite

end Axes

end ArmServo
