import ArmServo.Proofs.Linear.LeastSquares
import Mathlib.Analysis.Matrix.Spectrum

/-!
# Singular values bound a matrix from below

If every singular value of `J Jᵀ` exceeds a bound, then so does its quadratic form on all unit
vectors that are orthogonal to the kernel of `Jᵀ`: there only the eigenvectors with an eigenvalue
that is not zero take part.

Main statement: `lt_form_of_singularValues`.
-/

namespace ArmServo.LeastSquares

open Matrix

variable {m n : Type} [Fintype m] [Fintype n]

/-- A singular value that is not zero, with the pair of vectors that the matrix and its transpose
take to each other. -/
structure IsSingularValue (A : Matrix m n ℝ) (σ : ℝ) : Prop where
  pos : 0 < σ
  pair : ∃ (v : n → ℝ) (u : m → ℝ), v ≠ 0 ∧ A *ᵥ v = σ • u ∧ Aᵀ *ᵥ u = σ • v

/-! ## coordinates along eigenvectors -/

section Eigenvectors

variable [DecidableEq m] {B : Matrix m m ℝ} (hB : B.IsHermitian)
include hB

/-- The coordinate of a vector along an eigenvector. -/
noncomputable def along (u : m → ℝ) (i : m) : ℝ := ⇑(hB.eigenvectorBasis i) ⬝ᵥ u

theorem dot_eq_sum_along (u v : m → ℝ) : u ⬝ᵥ v = ∑ i, along hB u i * along hB v i := by
  have h := hB.eigenvectorBasis.sum_inner_mul_inner (WithLp.toLp 2 u) (WithLp.toLp 2 v)
  simp only [EuclideanSpace.inner_eq_star_dotProduct, star_trivial] at h
  rw [dotProduct_comm, ← h]
  refine Finset.sum_congr rfl fun i _ => ?_
  rw [dotProduct_comm v]
  rfl

theorem along_mulVec (u : m → ℝ) (i : m) :
    along hB (B *ᵥ u) i = hB.eigenvalues i * along hB u i := by
  unfold along
  rw [dotProduct_mulVec, ← mulVec_transpose, isHermitian_iff_isSymm.mp hB,
    hB.mulVec_eigenvectorBasis i, smul_dotProduct, smul_eq_mul]

theorem eigenvector_ne_zero (i : m) : ⇑(hB.eigenvectorBasis i) ≠ (0 : m → ℝ) := by
  intro h
  exact hB.eigenvectorBasis.toBasis.ne_zero i (by ext j; simpa using congrFun h j)

/-- Eigenvalues that are not zero are singular values if the form is nowhere negative. -/
theorem isSingularValue_eigenvalue (hpos : ∀ u, 0 ≤ u ⬝ᵥ (B *ᵥ u)) {i : m}
    (hi : hB.eigenvalues i ≠ 0) : IsSingularValue B (hB.eigenvalues i) := by
  have hvec := hB.mulVec_eigenvectorBasis i
  have hne := eigenvector_ne_zero hB i
  have hform := hpos ⇑(hB.eigenvectorBasis i)
  rw [hvec, dotProduct_smul, smul_eq_mul] at hform
  have hnonneg := nonneg_of_mul_nonneg_left hform (dot_self_pos hne)
  refine ⟨lt_of_le_of_ne hnonneg hi.symm, _, _, hne, hvec, ?_⟩
  rw [isHermitian_iff_isSymm.mp hB, hvec]

end Eigenvectors

/-! ## the form of a Gram matrix -/

theorem form_mul_transpose (J : Matrix m n ℝ) (u : m → ℝ) :
    u ⬝ᵥ ((J * Jᵀ) *ᵥ u) = (Jᵀ *ᵥ u) ⬝ᵥ (Jᵀ *ᵥ u) := by
  rw [← mulVec_mulVec, transpose_mulVec_dot]

/-- **Singular values bound the form from below** on what is orthogonal to the kernel. -/
theorem lt_form_of_singularValues {J : Matrix m n ℝ} {t : ℝ}
    (h : ∀ σ, IsSingularValue (J * Jᵀ) σ → t < σ) {u : m → ℝ} (hne : u ≠ 0)
    (hu : ∀ z, Jᵀ *ᵥ z = 0 → z ⬝ᵥ u = 0) : t * (u ⬝ᵥ u) < (Jᵀ *ᵥ u) ⬝ᵥ (Jᵀ *ᵥ u) := by
  classical
  have hB : (J * Jᵀ).IsHermitian := by
    rw [isHermitian_iff_isSymm, IsSymm, transpose_mul, transpose_transpose]
  have hpos : ∀ v, 0 ≤ v ⬝ᵥ ((J * Jᵀ) *ᵥ v) := by
    intro v
    rw [form_mul_transpose]
    exact dot_self_nonneg _
  -- along an eigenvector of the eigenvalue zero the vector has no part
  have hkernel : ∀ i, hB.eigenvalues i = 0 → along hB u i = 0 := by
    intro i hi
    refine hu _ (dotProduct_self_eq_zero.mp ?_)
    rw [← form_mul_transpose, hB.mulVec_eigenvectorBasis, hi, zero_smul, dotProduct_zero]
  have hterm : ∀ i, along hB u i ≠ 0 →
      t * (along hB u i * along hB u i) < along hB u i * along hB ((J * Jᵀ) *ᵥ u) i := by
    intro i hi
    have ht := h _ (isSingularValue_eigenvalue hB hpos fun h0 => hi (hkernel i h0))
    have hsq : 0 < along hB u i * along hB u i := mul_self_pos.mpr hi
    rw [along_mulVec]
    calc t * (along hB u i * along hB u i)
        < hB.eigenvalues i * (along hB u i * along hB u i) := mul_lt_mul_of_pos_right ht hsq
      _ = along hB u i * (hB.eigenvalues i * along hB u i) := by ring
  obtain ⟨k, hk⟩ : ∃ k, along hB u k ≠ 0 := by
    by_contra hall
    push Not at hall
    refine hne (dotProduct_self_eq_zero.mp ?_)
    rw [dot_eq_sum_along hB]
    exact Finset.sum_eq_zero fun i _ => by rw [hall i, zero_mul]
  rw [← form_mul_transpose, dot_eq_sum_along hB u u, dot_eq_sum_along hB u, Finset.mul_sum]
  refine Finset.sum_lt_sum (fun i _ => ?_) ⟨k, Finset.mem_univ k, hterm k hk⟩
  by_cases hi : along hB u i = 0
  · simp [hi]
  · exact (hterm i hi).le

end ArmServo.LeastSquares
