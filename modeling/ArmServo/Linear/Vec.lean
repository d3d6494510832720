import ArmServo.Geometry.Axes

/-!
# Vectors of any length

Vectors indexed by their length, built entry by entry, so that an algorithm that peels off one row
and column is a structural recursion.
-/

namespace ArmServo

inductive Vec (α : Type) : Nat → Type where
  | nil : Vec α 0
  | cons {n : Nat} (head : α) (tail : Vec α n) : Vec α (n + 1)

namespace Vec

variable {α β γ : Type}

def map (f : α → β) : {n : Nat} → Vec α n → Vec β n
  | _, nil => nil
  | _, cons a v => cons (f a) (map f v)

def zipWith (f : α → β → γ) : {n : Nat} → Vec α n → Vec β n → Vec γ n
  | _, nil, nil => nil
  | _, cons a v, cons b w => cons (f a b) (zipWith f v w)

def toList : {n : Nat} → Vec α n → List α
  | _, nil => []
  | _, cons a v => a :: toList v

def replicate (a : α) : (n : Nat) → Vec α n
  | 0 => nil
  | n + 1 => cons a (replicate a n)

/-- The six components in the order of the axes. -/
def ofAxes (v : Axes α) : Vec α 6 :=
  cons v.transX (cons v.transY (cons v.transZ (cons v.rotX (cons v.rotY (cons v.rotZ nil)))))

def toAxes : Vec α 6 → Axes α
  | cons a (cons b (cons c (cons d (cons e (cons f nil))))) => ⟨a, b, c, d, e, f⟩

@[simp] theorem toAxes_ofAxes (v : Axes α) : (ofAxes v).toAxes = v := rfl

variable [Scalar α]

def zero (n : Nat) : Vec α n := replicate 0 n

def dot : {n : Nat} → Vec α n → Vec α n → α
  | _, nil, nil => 0
  | _, cons a v, cons b w => a * b + dot v w

def add {n : Nat} (v w : Vec α n) : Vec α n := zipWith (· + ·) v w

/-- Every entry times `s`. -/
def scale {n : Nat} (s : α) (v : Vec α n) : Vec α n := v.map (s * ·)

/-- Every entry divided by `s`. -/
def divide {n : Nat} (v : Vec α n) (s : α) : Vec α n := v.map (· / s)

/-- `v - s * w`. -/
def subScaled {n : Nat} (v : Vec α n) (s : α) (w : Vec α n) : Vec α n :=
  zipWith (fun a b => a - s * b) v w

@[simp] theorem zero_succ (n : Nat) : (zero (n + 1) : Vec α (n + 1)) = cons 0 (zero n) := rfl

@[simp] theorem nil_dot_nil : (nil : Vec α 0).dot nil = 0 := rfl

@[simp] theorem cons_dot_cons {n : Nat} (a b : α) (v w : Vec α n) :
    (cons a v).dot (cons b w) = a * b + v.dot w := rfl

@[simp] theorem cons_add_cons {n : Nat} (a b : α) (v w : Vec α n) :
    (cons a v).add (cons b w) = cons (a + b) (v.add w) := rfl

@[simp] theorem scale_cons {n : Nat} (s a : α) (v : Vec α n) :
    (cons a v).scale s = cons (s * a) (v.scale s) := rfl

@[simp] theorem divide_cons {n : Nat} (a : α) (v : Vec α n) (s : α) :
    (cons a v).divide s = cons (a / s) (v.divide s) := rfl

@[simp] theorem cons_subScaled_cons {n : Nat} (a b s : α) (v w : Vec α n) :
    (cons a v).subScaled s (cons b w) = cons (a - s * b) (v.subScaled s w) := rfl

/-- The products with each of the given vectors. -/
def coordinates {n : Nat} : (vs : List (Vec α n)) → Vec α n → Vec α vs.length
  | [], _ => nil
  | v :: vs, b => cons (v.dot b) (coordinates vs b)

/-- The sum of the given vectors, each times its weight. -/
def combine {n : Nat} : (vs : List (Vec α n)) → Vec α vs.length → Vec α n
  | [], nil => zero n
  | v :: vs, cons w ws => add (v.scale w) (combine vs ws)

@[simp] theorem coordinates_cons {n : Nat} (v : Vec α n) (vs : List (Vec α n)) (b : Vec α n) :
    coordinates (v :: vs) b = cons (v.dot b) (coordinates vs b) := rfl

@[simp] theorem combine_cons {n : Nat} (v : Vec α n) (vs : List (Vec α n)) (w : α)
    (ws : Vec α vs.length) : combine (v :: vs) (cons w ws) = add (v.scale w) (combine vs ws) := rfl

end Vec

end ArmServo
