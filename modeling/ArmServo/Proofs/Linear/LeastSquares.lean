import Mathlib.Algebra.Order.Star.Real
import Mathlib.LinearAlgebra.Matrix.DotProduct
import Mathlib.Tactic.LinearCombination

/-!
# Damped least squares

For a matrix `J`, a vector `x` and a damping `λ` the vectors `v` that minimise
`‖J v - x‖² + λ² ‖v‖²` are told by a normal equation. A minimiser of the form `Jᵀ y` is the shortest
of all, and without damping it is the product of `x` with the pseudo-inverse of `J`.

Main statements: `leastNorm_of_normal`, `isPseudoInverse_of_normal`.
-/

namespace ArmServo.LeastSquares

open Matrix

variable {m n : Type} [Fintype m] [Fintype n] {J : Matrix m n ℝ} {x y : m → ℝ} {damping : ℝ}

/-- `‖J v - x‖² + λ² ‖v‖²`. -/
def cost (J : Matrix m n ℝ) (x : m → ℝ) (damping : ℝ) (v : n → ℝ) : ℝ :=
  (J *ᵥ v - x) ⬝ᵥ (J *ᵥ v - x) + damping ^ 2 * (v ⬝ᵥ v)

/-- The vector minimises the cost, and every other minimiser is longer. -/
structure LeastNorm (J : Matrix m n ℝ) (x : m → ℝ) (damping : ℝ) (q : n → ℝ) : Prop where
  minimal : ∀ v, cost J x damping q ≤ cost J x damping v
  shortest : ∀ v, cost J x damping v = cost J x damping q → v ≠ q → q ⬝ᵥ q < v ⬝ᵥ v

/-- The normal equation for a vector `Jᵀ y`. -/
def Normal (J : Matrix m n ℝ) (x : m → ℝ) (damping : ℝ) (y : m → ℝ) : Prop :=
  Jᵀ *ᵥ (J *ᵥ (Jᵀ *ᵥ y) + damping ^ 2 • y - x) = 0

theorem normal_zero_iff :
    Normal J x 0 y ↔ Jᵀ *ᵥ (J *ᵥ (Jᵀ *ᵥ y) - x) = 0 := by
  rw [Normal, zero_pow two_ne_zero, zero_smul, add_zero]

/-! ## minimisers -/

theorem transpose_mulVec_dot (J : Matrix m n ℝ) (y : m → ℝ) (v : n → ℝ) :
    (Jᵀ *ᵥ y) ⬝ᵥ v = y ⬝ᵥ (J *ᵥ v) := by
  rw [mulVec_transpose, dotProduct_mulVec]

/-- How much the cost grows away from a solution of the normal equation. -/
theorem cost_add (h : Normal J x damping y) (d : n → ℝ) :
    cost J x damping (Jᵀ *ᵥ y + d) = cost J x damping (Jᵀ *ᵥ y) +
      ((J *ᵥ d) ⬝ᵥ (J *ᵥ d) + damping ^ 2 * (d ⬝ᵥ d)) := by
  have hcross : (J *ᵥ (Jᵀ *ᵥ y) - x) ⬝ᵥ (J *ᵥ d) + damping ^ 2 * ((Jᵀ *ᵥ y) ⬝ᵥ d) = 0 := by
    have hzero : (Jᵀ *ᵥ (J *ᵥ (Jᵀ *ᵥ y) + damping ^ 2 • y - x)) ⬝ᵥ d = 0 := by
      rw [h, zero_dotProduct]
    rw [transpose_mulVec_dot, sub_dotProduct, add_dotProduct, smul_dotProduct, smul_eq_mul] at hzero
    rw [sub_dotProduct, transpose_mulVec_dot]
    linarith
  have hshift : J *ᵥ (Jᵀ *ᵥ y + d) - x = (J *ᵥ (Jᵀ *ᵥ y) - x) + J *ᵥ d := by
    rw [mulVec_add]
    abel
  unfold cost
  rw [hshift]
  simp only [add_dotProduct, dotProduct_add, dotProduct_comm (J *ᵥ d) (J *ᵥ (Jᵀ *ᵥ y) - x),
    dotProduct_comm d (Jᵀ *ᵥ y)]
  linear_combination 2 * hcross

theorem dot_self_nonneg (v : n → ℝ) : 0 ≤ v ⬝ᵥ v :=
  Finset.sum_nonneg fun i _ => mul_self_nonneg (v i)

theorem dot_self_pos {v : n → ℝ} (h : v ≠ 0) : 0 < v ⬝ᵥ v :=
  lt_of_le_of_ne (dot_self_nonneg v) fun h0 => h (dotProduct_self_eq_zero.mp h0.symm)

theorem cost_le_cost_add (h : Normal J x damping y) (d : n → ℝ) :
    cost J x damping (Jᵀ *ᵥ y) ≤ cost J x damping (Jᵀ *ᵥ y + d) := by
  have h1 := dot_self_nonneg (J *ᵥ d)
  have h2 := mul_nonneg (sq_nonneg damping) (dot_self_nonneg d)
  rw [cost_add h]
  linarith

/-- A step to another minimiser is not seen through `J`, nor by any damping. -/
theorem eq_zero_of_cost_add (h : Normal J x damping y) {d : n → ℝ}
    (hd : cost J x damping (Jᵀ *ᵥ y + d) ≤ cost J x damping (Jᵀ *ᵥ y)) :
    J *ᵥ d = 0 ∧ damping ^ 2 * (d ⬝ᵥ d) = 0 := by
  have h1 := dot_self_nonneg (J *ᵥ d)
  have h2 := mul_nonneg (sq_nonneg damping) (dot_self_nonneg d)
  rw [cost_add h] at hd
  exact ⟨dotProduct_self_eq_zero.mp (by linarith), by linarith⟩

/-- **A solution of the normal equation is the shortest minimiser.** -/
theorem leastNorm_of_normal (h : Normal J x damping y) : LeastNorm J x damping (Jᵀ *ᵥ y) where
  minimal v := by
    have hv := cost_le_cost_add h (v - Jᵀ *ᵥ y)
    rwa [add_sub_cancel] at hv
  shortest v hv hne := by
    obtain ⟨d, rfl⟩ : ∃ d, v = Jᵀ *ᵥ y + d := ⟨v - Jᵀ *ᵥ y, (add_sub_cancel _ _).symm⟩
    have hd : d ≠ 0 := by
      rintro rfl
      exact hne (add_zero _)
    have hJ := (eq_zero_of_cost_add h hv.le).1
    have hqd : (Jᵀ *ᵥ y) ⬝ᵥ d = 0 := by rw [transpose_mulVec_dot, hJ, dotProduct_zero]
    have hpos := dot_self_pos hd
    rw [dotProduct_add, add_dotProduct, add_dotProduct, dotProduct_comm d, hqd]
    linarith

/-- With damping there is only one minimiser. -/
theorem unique_of_normal (h : Normal J x damping y) (hdamping : 0 < damping) {v : n → ℝ}
    (hv : cost J x damping v ≤ cost J x damping (Jᵀ *ᵥ y)) : v = Jᵀ *ᵥ y := by
  obtain ⟨d, rfl⟩ : ∃ d, v = Jᵀ *ᵥ y + d := ⟨v - Jᵀ *ᵥ y, (add_sub_cancel _ _).symm⟩
  have hd := (eq_zero_of_cost_add h hv).2
  have hsq : damping ^ 2 ≠ 0 := pow_ne_zero 2 hdamping.ne'
  rw [dotProduct_self_eq_zero.mp ((mul_eq_zero.mp hd).resolve_left hsq), add_zero]

/-! ## full row rank -/

theorem eq_zero_of_transpose_mulVec [DecidableEq m] (hunit : IsUnit (J * Jᵀ)) (h : Jᵀ *ᵥ y = 0) :
    y = 0 := by
  refine mulVec_injective_of_isUnit hunit ?_
  rw [← mulVec_mulVec, h, mulVec_zero, mulVec_zero]

theorem mulVec_eq_of_normal [DecidableEq m] (hunit : IsUnit (J * Jᵀ)) (h : Normal J x 0 y) :
    J *ᵥ (Jᵀ *ᵥ y) = x :=
  sub_eq_zero.mp (eq_zero_of_transpose_mulVec hunit (normal_zero_iff.mp h))

/-! ## the pseudo-inverse -/

/-- The four equations of the pseudo-inverse. -/
structure IsPseudoInverse (J : Matrix m n ℝ) (P : Matrix n m ℝ) : Prop where
  inner : J * P * J = J
  outer : P * J * P = P
  left : (J * P)ᵀ = J * P
  right : (P * J)ᵀ = P * J

section Transpose

variable {k : Type}

theorem eq_zero_of_transpose_mul_self {A : Matrix m k ℝ} (h : Aᵀ * A = 0) : A = 0 := by
  rw [← conjTranspose_eq_transpose_of_trivial] at h
  exact conjTranspose_mul_self_eq_zero.mp h

/-- Nothing in the range of `Jᵀ` is lost by `J`. -/
theorem transpose_mul_eq_zero {Z : Matrix m k ℝ} (h : J * (Jᵀ * Z) = 0) : Jᵀ * Z = 0 := by
  refine eq_zero_of_transpose_mul_self ?_
  rw [transpose_mul, transpose_transpose, Matrix.mul_assoc, h, Matrix.mul_zero]

theorem transpose_eq_of_transpose_mul_self [Fintype k] {A : Matrix k k ℝ} (h : Aᵀ * A = A) : Aᵀ = A := by
  rw [← h, transpose_mul, transpose_transpose]

end Transpose

/-- **Solutions of the normal equations for all unit vectors give the pseudo-inverse.** -/
theorem isPseudoInverse_of_normal [DecidableEq m] {Y : Matrix m m ℝ}
    (h : Jᵀ * (J * (Jᵀ * Y) - 1) = 0) : IsPseudoInverse J (Jᵀ * Y) := by
  have hnormal : Jᵀ * (J * (Jᵀ * Y)) = Jᵀ := by
    rwa [Matrix.mul_sub, Matrix.mul_one, sub_eq_zero] at h
  have hleft : (J * (Jᵀ * Y))ᵀ = J * (Jᵀ * Y) := by
    have hfix : (J * (Jᵀ * Y))ᵀ * J = J := by
      have ht := congrArg transpose hnormal
      rwa [transpose_mul, transpose_transpose] at ht
    refine transpose_eq_of_transpose_mul_self ?_
    rw [← Matrix.mul_assoc (J * (Jᵀ * Y))ᵀ, hfix]
  have hinner : J * (Jᵀ * Y) * J = J := by
    have ht := congrArg transpose hnormal
    rwa [transpose_mul, transpose_transpose, hleft] at ht
  have houter : Jᵀ * Y * J * (Jᵀ * Y) = Jᵀ * Y := by
    have hfactor : Jᵀ * Y * J * (Jᵀ * Y) - Jᵀ * Y = Jᵀ * (Y * J * (Jᵀ * Y) - Y) := by
      simp only [Matrix.mul_sub, Matrix.mul_assoc]
    refine sub_eq_zero.mp ?_
    rw [hfactor]
    refine transpose_mul_eq_zero ?_
    rw [← hfactor, Matrix.mul_sub, ← Matrix.mul_assoc J, ← Matrix.mul_assoc J, hinner, sub_self]
  have hright : (Jᵀ * Y * J)ᵀ = Jᵀ * Y * J := by
    have hself : (Jᵀ * Y * J)ᵀ * (Jᵀ * Y * J) = (Jᵀ * Y * J)ᵀ := by
      have ht : (Jᵀ * Y * J)ᵀ = Jᵀ * Yᵀ * J := by
        rw [transpose_mul, transpose_mul, transpose_transpose, Matrix.mul_assoc]
      rw [ht, Matrix.mul_assoc (Jᵀ * Yᵀ), ← Matrix.mul_assoc J, hinner]
    have ht := congrArg transpose hself
    rw [transpose_mul, transpose_transpose] at ht
    exact hself.symm.trans ht
  exact ⟨hinner, houter, hleft, hright⟩

theorem LeastNorm.unique {q q' : n → ℝ} (h : LeastNorm J x damping q)
    (h' : LeastNorm J x damping q') : q = q' := by
  by_contra hne
  have hcost := le_antisymm (h.minimal q') (h'.minimal q)
  exact lt_asymm (h.shortest _ hcost.symm (Ne.symm hne)) (h'.shortest _ hcost hne)

/-- **Undamped solutions are the products with the pseudo-inverse**, which exists if every vector
has such a solution. -/
theorem exists_isPseudoInverse [DecidableEq m] (h : ∀ x, ∃ y, Normal J x 0 y) :
    ∃ P, IsPseudoInverse J P ∧ ∀ x y, Normal J x 0 y → Jᵀ *ᵥ y = P *ᵥ x := by
  choose f hf using h
  -- the columns are the solutions for the unit vectors
  let Y : Matrix m m ℝ := (of fun j => f (Pi.single j 1))ᵀ
  have hY : Jᵀ * (J * (Jᵀ * Y) - 1) = 0 := by
    refine ext_of_mulVec_single fun j => ?_
    have hcol : Y *ᵥ Pi.single j 1 = f (Pi.single j 1) := by
      rw [mulVec_single_one]
      rfl
    rw [← mulVec_mulVec, sub_mulVec, ← mulVec_mulVec, ← mulVec_mulVec, hcol, one_mulVec,
      normal_zero_iff.mp (hf _), zero_mulVec]
  refine ⟨Jᵀ * Y, isPseudoInverse_of_normal hY, fun x y hy => ?_⟩
  have hYx : Normal J x 0 (Y *ᵥ x) := by
    have hx := congrArg (· *ᵥ x) hY
    simp only [← mulVec_mulVec, sub_mulVec, one_mulVec, zero_mulVec] at hx
    exact normal_zero_iff.mpr hx
  rw [(leastNorm_of_normal hy).unique (leastNorm_of_normal hYx), mulVec_mulVec]

end ArmServo.LeastSquares
