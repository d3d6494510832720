import ArmServo.Linear.Vec

/-!
# Principal directions

Vectors `v` stand for the sum of their squares `v vᵀ`. Two of them can be turned in their plane
until they are orthogonal, which leaves the sum as it is; turning all pairs again and again makes
all of them as good as orthogonal, and then their squared lengths are the eigenvalues of the sum.
`principal` picks directions by length from vectors so turned, until what is left of the sum has no
eigenvalue above a tolerance. If every nonzero eigenvalue exceeds the tolerance, then nothing is
left, however far from orthogonal the vectors still are, and the directions span their space.
-/

namespace ArmServo.Vec

variable {α : Type} [Scalar α] {n : Nat}

/-! ## turning pairs -/

/-- Two vectors, turned by the smaller of the angles that make them orthogonal. -/
def turn (v w : Vec α n) : Vec α n × Vec α n :=
  let product := v.dot w
  if product == 0 then (v, w)
  else
    let cotangent := (w.dot w - v.dot v) / (Scalar.two * product)
    let side : α := if cotangent < 0 then -1 else 1
    let tangent := side / (Scalar.abs cotangent + Scalar.sqrt (1 + cotangent * cotangent))
    let cosine := 1 / Scalar.sqrt (1 + tangent * tangent)
    let sine := cosine * tangent
    ((v.scale cosine).subScaled sine w, (v.scale sine).add (w.scale cosine))

/-- Turns a vector against each of the others in their order. -/
def turnEach (v : Vec α n) : List (Vec α n) → Vec α n × List (Vec α n)
  | [] => (v, [])
  | w :: ws =>
    let pair := turn v w
    let others := turnEach pair.1 ws
    (others.1, pair.2 :: others.2)

/-- Turns every pair once. -/
def turnAll : List (Vec α n) → List (Vec α n)
  | [] => []
  | v :: vs =>
    let turned := turnEach v (turnAll vs)
    turned.1 :: turned.2

/-- Turns every pair the given number of times. -/
def orthogonalize : (rounds : Nat) → List (Vec α n) → List (Vec α n)
  | 0, vs => vs
  | rounds + 1, vs => orthogonalize rounds (turnAll vs)

@[simp] theorem length_turnEach (v : Vec α n) (ws : List (Vec α n)) :
    (turnEach v ws).2.length = ws.length := by
  induction ws generalizing v with
  | nil => rfl
  | cons w ws ih => simp [turnEach, ih]

@[simp] theorem length_turnAll (vs : List (Vec α n)) : (turnAll vs).length = vs.length := by
  induction vs with
  | nil => rfl
  | cons v vs ih => simp [turnAll, ih]

@[simp] theorem length_orthogonalize (rounds : Nat) (vs : List (Vec α n)) :
    (orthogonalize rounds vs).length = vs.length := by
  induction rounds generalizing vs with
  | zero => rfl
  | succ rounds ih => simp [orthogonalize, ih]

/-! ## picking directions -/

/-- The longer of two vectors, the first one if none is. -/
def longer (v w : Vec α n) : Vec α n := if v.dot v < w.dot w then w else v

/-- The part of `v` orthogonal to `p`. -/
def reject (p v : Vec α n) : Vec α n := v.subScaled (p.dot v / p.dot p) p

/-- The sum of the products of `v` with the given vectors, all taken positive. The largest such sum
among the vectors themselves bounds the eigenvalues of the sum of their squares. -/
def overlap (vs : List (Vec α n)) (v : Vec α n) : α :=
  vs.foldr (fun w sum => Scalar.abs (v.dot w) + sum) 0

/-- Orthogonal directions of length one, each that of the longest vector, from which the others
are then freed; at most `rounds` of them, and none once the overlaps are at most `tolerance`. -/
def directions (tolerance : α) : (rounds : Nat) → List (Vec α n) → List (Vec α n)
  | 0, _ => []
  | rounds + 1, vs =>
    if vs.all fun v => decide (overlap vs v ≤ tolerance) then []
    else
      let p := vs.foldl longer (zero n)
      p.divide (Scalar.sqrt (p.dot p)) :: directions tolerance rounds (vs.map (reject p))

/-- How often every pair is turned. A few times are enough for the precision of doubles, and in
exact arithmetic any number is. -/
def turnings : Nat := 16

/-- The directions of the eigenvectors, with eigenvalues above `tolerance`, of the sum of the
squares of the given vectors. -/
def principal (tolerance : α) (vs : List (Vec α n)) : List (Vec α n) :=
  directions tolerance n (orthogonalize turnings vs)

end ArmServo.Vec
