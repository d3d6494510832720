import ArmServo.Linear.Vec

/-!
# Symmetric matrices

A symmetric matrix is kept as its lower triangle: a first diagonal entry, the column below it, and
the matrix that remains. Elimination follows this shape. `solve?` is the Cholesky solution of a
linear system; it fails exactly where a pivot is not positive. `solveWithin?` solves a system within
the space of some vectors, which takes the place of the inverse where the matrix is singular.
-/

namespace ArmServo

inductive SymMatrix (α : Type) : Nat → Type where
  | nil : SymMatrix α 0
  | cons {n : Nat} (diag : α) (below : Vec α n) (rest : SymMatrix α n) : SymMatrix α (n + 1)

namespace SymMatrix

variable {α : Type} [Scalar α]

def zero : (n : Nat) → SymMatrix α n
  | 0 => nil
  | n + 1 => cons 0 (.zero n) (zero n)

/-- `A + v vᵀ`. -/
def addOuter : {n : Nat} → SymMatrix α n → Vec α n → SymMatrix α n
  | _, nil, .nil => nil
  | _, cons d b a, .cons x v =>
    cons (d + x * x) (Vec.zipWith (fun s t => s + x * t) b v) (addOuter a v)

/-- `A - v vᵀ`. -/
def subOuter : {n : Nat} → SymMatrix α n → Vec α n → SymMatrix α n
  | _, nil, .nil => nil
  | _, cons d b a, .cons x v => cons (d - x * x) (b.subScaled x v) (subOuter a v)

/-- `A + s I`. -/
def addScalar : {n : Nat} → SymMatrix α n → α → SymMatrix α n
  | _, nil, _ => nil
  | _, cons d b a, s => cons (d + s) b (addScalar a s)

/-- The product with a vector. -/
def mulVec : {n : Nat} → SymMatrix α n → Vec α n → Vec α n
  | _, nil, .nil => .nil
  | _, cons d b a, .cons x v => .cons (d * x + b.dot v) ((b.scale x).add (mulVec a v))

@[simp] theorem addOuter_cons {n : Nat} (d : α) (b : Vec α n) (a : SymMatrix α n) (x : α)
    (v : Vec α n) : (cons d b a).addOuter (.cons x v) =
      cons (d + x * x) (Vec.zipWith (fun s t => s + x * t) b v) (a.addOuter v) := rfl

@[simp] theorem subOuter_cons {n : Nat} (d : α) (b : Vec α n) (a : SymMatrix α n) (x : α)
    (v : Vec α n) : (cons d b a).subOuter (.cons x v) =
      cons (d - x * x) (b.subScaled x v) (a.subOuter v) := rfl

@[simp] theorem addScalar_cons {n : Nat} (d : α) (b : Vec α n) (a : SymMatrix α n) (s : α) :
    (cons d b a).addScalar s = cons (d + s) b (a.addScalar s) := rfl

@[simp] theorem mulVec_cons {n : Nat} (d : α) (b : Vec α n) (a : SymMatrix α n) (x : α)
    (v : Vec α n) : (cons d b a).mulVec (.cons x v) =
      .cons (d * x + b.dot v) ((b.scale x).add (a.mulVec v)) := rfl

/-! ## positive definite systems -/

/-- The solution of `A x = y` by Cholesky factorisation; none if a pivot is not positive. -/
def solve? : {n : Nat} → SymMatrix α n → Vec α n → Option (Vec α n)
  | _, nil, .nil => some .nil
  | _, cons d b a, .cons y ys =>
    if 0 < d then
      let l := Scalar.sqrt d
      let v := b.divide l
      let s := y / l
      match solve? (a.subOuter v) (ys.subScaled s v) with
      | some x => some (.cons ((s - v.dot x) / l) x)
      | none => none
    else none

/-! ## systems within a space -/

/-- The products `v · A w` of the given vectors. -/
def compress {n : Nat} (a : SymMatrix α n) : (vs : List (Vec α n)) → SymMatrix α vs.length
  | [] => nil
  | v :: vs => cons (v.dot (a.mulVec v)) (Vec.coordinates vs (a.mulVec v)) (compress a vs)

/-- The combination `x` of the given vectors for which `A x` and `y` have the same products with
each of them. If the vectors are a basis of the range of a positive semidefinite `A`, then `x` is
the vector of least norm among those that minimise the distance of `A x` from `y`. -/
def solveWithin? {n : Nat} (a : SymMatrix α n) (vs : List (Vec α n)) (y : Vec α n) :
    Option (Vec α n) :=
  ((a.compress vs).solve? (Vec.coordinates vs y)).map (Vec.combine vs)

end SymMatrix

end ArmServo
