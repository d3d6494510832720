import Mathlib
import ArmServo.Motion.Solver
import ArmServo.Proofs.Linear.LeastSquares
import ArmServo.Proofs.Linear.Orthogonal
import ArmServo.Proofs.Linear.Spectrum
import ArmServo.Proofs.Linear.Symmetric
import ArmServo.Proofs.Motion.Solver

/-!
# Joint velocities are damped least squares

What is solved for `y` has the form of `J Jᵀ + λ² I`, and of the equation `(J Jᵀ + λ² I) y = ẋ` it is
enough that no column of `J` tells its sides apart: then `Jᵀ y` is the shortest minimiser of
`‖J v - ẋ‖² + λ² ‖v‖²`. Elimination gives the whole equation. Where it fails, the principal
directions of the columns reach all of them, and the system within these directions gives as much as
the columns can see.

Main statement: `joint_velocities_are_least_norm`.
-/

namespace ArmServo

open LeastSquares Matrix

/-- The six components as a column. -/
def Axes.components (v : Axes ℝ) : Fin 6 → ℝ :=
  ![v.transX, v.transY, v.transZ, v.rotX, v.rotY, v.rotZ]

namespace TaskSpace

/-- The Jacobian with the given columns. -/
def jacobian (columns : List (Axes ℝ)) : Matrix (Fin 6) (Fin columns.length) ℝ :=
  .of fun i k => columns[k].components i

/-- `J Jᵀ`. -/
def gram (columns : List (Axes ℝ)) : Matrix (Fin 6) (Fin 6) ℝ :=
  jacobian columns * (jacobian columns)ᵀ

/-- The joint velocities that belong to a `y`. -/
noncomputable def jointVelocities (columns : List (Axes ℝ)) (y : Axes ℝ) :
    Fin columns.length → ℝ :=
  fun k => columns[k].dot y

theorem moved?_eq (s : Solver ℝ) (columns : List (Axes ℝ)) (period : Period) (velocity : Axes ℝ) :
    s.moved? columns period velocity solve =
      Solver.moveJoints? period.seconds s.limits s.motion.positions
        (List.ofFn (jointVelocities columns (solve columns s.damping velocity))) := by
  unfold Solver.moved? jointVelocities
  congr 1
  exact (List.ofFn_getElem_eq_map columns _).symm

/-! ## vectors as columns -/

@[simp] theorem entries_ofAxes (v : Axes ℝ) : (Vec.ofAxes v).entries = v.components := by
  funext i
  fin_cases i <;> rfl

theorem ofAxes_toAxes (v : Vec ℝ 6) : Vec.ofAxes v.toAxes = v := by
  obtain _ | ⟨a, _ | ⟨b, _ | ⟨c, _ | ⟨d, _ | ⟨e, _ | ⟨f, _ | _⟩⟩⟩⟩⟩⟩ := v
  rfl

theorem dot_ofAxes (c v : Axes ℝ) : (Vec.ofAxes c).dot (Vec.ofAxes v) = c.dot v := by
  simp only [Axes.dot, Axes.zipWith, Axes.toList, List.foldl_cons, List.foldl_nil, Vec.ofAxes,
    Vec.cons_dot_cons, Vec.nil_dot_nil]
  ring

theorem transpose_jacobian_mulVec (columns : List (Axes ℝ)) (u : Vec ℝ 6)
    (k : Fin columns.length) :
    ((jacobian columns)ᵀ *ᵥ u.entries) k = (Vec.ofAxes columns[k]).dot u := by
  rw [Vec.dot_eq_dotProduct, entries_ofAxes]
  rfl

theorem forall_columns_iff {columns : List (Axes ℝ)} {p : Vec ℝ 6 → Prop} :
    (∀ v ∈ columns.map Vec.ofAxes, p v) ↔ ∀ k : Fin columns.length, p (.ofAxes columns[k]) := by
  rw [List.forall_mem_map, List.forall_mem_iff_getElem]
  exact ⟨fun h k => h k k.isLt, fun h i hi => h ⟨i, hi⟩⟩

theorem transpose_jacobian_mulVec_eq_zero {columns : List (Axes ℝ)} {u : Vec ℝ 6} :
    (jacobian columns)ᵀ *ᵥ u.entries = 0 ↔ ∀ v ∈ columns.map Vec.ofAxes, u.dot v = 0 := by
  rw [forall_columns_iff, funext_iff]
  simp only [transpose_jacobian_mulVec, Vec.dot_comm u, Pi.zero_apply]

theorem jointVelocities_toAxes (columns : List (Axes ℝ)) (y : Vec ℝ 6) :
    jointVelocities columns y.toAxes = (jacobian columns)ᵀ *ᵥ y.entries := by
  funext k
  rw [transpose_jacobian_mulVec, jointVelocities, ← dot_ofAxes, ofAxes_toAxes]

theorem components_surjective (f : Fin 6 → ℝ) : ∃ v : Axes ℝ, v.components = f := by
  obtain ⟨v, rfl⟩ := Vec.entries_surjective f
  exact ⟨v.toAxes, by rw [← entries_ofAxes, ofAxes_toAxes]⟩

/-! ## the matrix -/

theorem tolerance_nonneg : (0 : ℝ) ≤ tolerance := by
  unfold tolerance
  rw [Scalar.negPowTen_real]
  positivity

theorem dot_foldl_addOuter (columns : List (Axes ℝ)) (a : SymMatrix ℝ 6) (u w : Vec ℝ 6) :
    u.dot ((columns.foldl (fun a c => a.addOuter (.ofAxes c)) a).mulVec w) =
      u.dot (a.mulVec w) + (columns.map fun c => (Vec.ofAxes c).dot u * (Vec.ofAxes c).dot w).sum := by
  induction columns generalizing a with
  | nil => exact (add_zero _).symm
  | cons c columns ih =>
    rw [List.foldl_cons, ih, SymMatrix.dot_addOuter_mulVec, List.map_cons, List.sum_cons,
      Vec.dot_comm u (Vec.ofAxes c), add_assoc]

theorem dot_matrix_mulVec (columns : List (Axes ℝ)) (damping : ℝ) (u w : Vec ℝ 6) :
    u.dot ((matrix columns damping).mulVec w) =
      ((jacobian columns)ᵀ *ᵥ u.entries) ⬝ᵥ ((jacobian columns)ᵀ *ᵥ w.entries) +
        damping ^ 2 * u.dot w := by
  have hsum : ((jacobian columns)ᵀ *ᵥ u.entries) ⬝ᵥ ((jacobian columns)ᵀ *ᵥ w.entries) =
      (columns.map fun c => (Vec.ofAxes c).dot u * (Vec.ofAxes c).dot w).sum := by
    rw [← Fin.sum_univ_fun_getElem, dotProduct]
    exact Finset.sum_congr rfl fun k _ => by
      rw [transpose_jacobian_mulVec, transpose_jacobian_mulVec, Fin.getElem_fin]
  unfold matrix
  rw [SymMatrix.dot_addScalar_mulVec, dot_foldl_addOuter, SymMatrix.dot_zero_mulVec, hsum, zero_add,
    sq]

theorem entries_matrix_mulVec (columns : List (Axes ℝ)) (damping : ℝ) (y : Vec ℝ 6) :
    ((matrix columns damping).mulVec y).entries =
      jacobian columns *ᵥ ((jacobian columns)ᵀ *ᵥ y.entries) + damping ^ 2 • y.entries := by
  refine dotProduct_eq _ _ fun f => ?_
  obtain ⟨u, rfl⟩ := Vec.entries_surjective f
  rw [dotProduct_comm, ← Vec.dot_eq_dotProduct, dot_matrix_mulVec, transpose_mulVec_dot,
    dotProduct_comm _ u.entries, dotProduct_add, dotProduct_smul, smul_eq_mul, Vec.dot_eq_dotProduct]

theorem quadratic_matrix (columns : List (Axes ℝ)) (damping : ℝ) (w : Vec ℝ 6) :
    w.dot ((matrix columns damping).mulVec w) =
      Vec.squares (columns.map .ofAxes) w + damping ^ 2 * w.dot w := by
  rw [dot_matrix_mulVec, Vec.squares, List.map_map, ← Fin.sum_univ_fun_getElem, dotProduct]
  congr 1
  refine Finset.sum_congr rfl fun k _ => ?_
  rw [transpose_jacobian_mulVec, Vec.dot_comm]
  exact (sq _).symm

theorem posDef_matrix {columns : List (Axes ℝ)} {damping : ℝ}
    (h : 0 < damping ∨ IsUnit (gram columns)) : (matrix columns damping).PosDef := by
  intro w hw
  have hsquares := Vec.squares_nonneg (columns.map .ofAxes) w
  have hpos := Vec.dot_self_pos hw
  rw [quadratic_matrix]
  rcases h with hdamping | hunit
  · have hd := mul_pos (pow_pos hdamping 2) hpos
    linarith
  · have hd := mul_nonneg (sq_nonneg damping) hpos.le
    refine lt_of_le_of_ne (add_nonneg hsquares hd) fun h0 => hw ?_
    have hzero : Vec.squares (columns.map .ofAxes) w = 0 := by linarith
    have hcols := transpose_jacobian_mulVec_eq_zero.mpr (Vec.squares_eq_zero_iff.mp hzero)
    exact Vec.eq_zero_of_entries (eq_zero_of_transpose_mulVec hunit hcols)

/-! ## the normal equation -/

/-- The normal equation asks that no column tells the sides apart. -/
theorem normal_iff {columns : List (Axes ℝ)} {damping : ℝ} {velocity : Axes ℝ} {y : Vec ℝ 6} :
    LeastSquares.Normal (jacobian columns) velocity.components damping y.entries ↔
      ∀ v ∈ columns.map Vec.ofAxes,
        v.dot ((matrix columns damping).mulVec y) = v.dot (.ofAxes velocity) := by
  rw [forall_columns_iff, LeastSquares.Normal, ← entries_matrix_mulVec, ← entries_ofAxes,
    mulVec_sub, sub_eq_zero, funext_iff]
  simp only [transpose_jacobian_mulVec]

/-- What is not zero and within reach of the columns is not zero for the form. -/
theorem exceeds_tolerance {columns : List (Axes ℝ)}
    (h : ∀ σ, IsSingularValue (gram columns) σ → tolerance < σ) :
    Vec.Exceeds (columns.map .ofAxes) (tolerance : ℝ) := by
  intro u hu hne
  have hentries : u.entries ≠ 0 := fun h0 => hne (Vec.eq_zero_of_entries h0)
  have hkernel : ∀ f, (jacobian columns)ᵀ *ᵥ f = 0 → f ⬝ᵥ u.entries = 0 := by
    intro f hf
    obtain ⟨z, rfl⟩ := Vec.entries_surjective f
    rw [← Vec.dot_eq_dotProduct]
    exact hu z (transpose_jacobian_mulVec_eq_zero.mp hf)
  have hlt := lt_form_of_singularValues h hentries hkernel
  have hform := quadratic_matrix columns 0 u
  rw [dot_matrix_mulVec, zero_pow two_ne_zero, zero_mul, add_zero, add_zero] at hform
  rwa [hform, ← Vec.dot_eq_dotProduct] at hlt

/-! ## both ways to solve -/

theorem spanned_reach {columns : List (Axes ℝ)}
    (h : ∀ σ, IsSingularValue (gram columns) σ → tolerance < σ) :
    Vec.Spanned (columns.map .ofAxes) (reach columns) :=
  Vec.spanned_principal tolerance_nonneg (exceeds_tolerance h)

/-- The system within reach is positive definite, since its combinations exceed the tolerance. -/
theorem posDef_compress_reach {columns : List (Axes ℝ)}
    (h : ∀ σ, IsSingularValue (gram columns) σ → tolerance < σ) (damping : ℝ) :
    ((matrix columns damping).compress (reach columns)).PosDef := by
  refine SymMatrix.posDef_compress fun z hz => ?_
  have hspan := spanned_reach h
  have hne := fun h0 => hz (hspan.independent z h0)
  have hlt := exceeds_tolerance h _ (hspan.reaches_combine z) hne
  have hself := Vec.dot_self_nonneg (Vec.combine (reach columns) z)
  have hd := mul_nonneg (sq_nonneg damping) hself
  have ht := mul_nonneg tolerance_nonneg hself
  rw [quadratic_matrix]
  linarith

theorem solve_of_posDef {columns : List (Axes ℝ)} {damping : ℝ}
    (h : (matrix columns damping).PosDef) (velocity : Axes ℝ) :
    ∃ y, (matrix columns damping).solve? (.ofAxes velocity) = some y ∧
      solve columns damping velocity = y.toAxes := by
  obtain ⟨y, hy⟩ := Option.isSome_iff_exists.mp
    ((SymMatrix.isSome_solve?_iff _ (.ofAxes velocity)).mpr h)
  refine ⟨y, hy, ?_⟩
  unfold solve
  dsimp only
  rw [hy]

/-- **What is solved satisfies the normal equation.** -/
theorem normal_solve (columns : List (Axes ℝ)) {damping : ℝ} (velocity : Axes ℝ)
    (hdamping : 0 ≤ damping) (hapart : damping = 0 → ¬ IsUnit (gram columns) →
      ∀ σ, IsSingularValue (gram columns) σ → tolerance < σ) :
    ∃ y : Vec ℝ 6, solve columns damping velocity = y.toAxes ∧
      LeastSquares.Normal (jacobian columns) velocity.components damping y.entries := by
  unfold solve
  dsimp only
  cases hy : (matrix columns damping).solve? (.ofAxes velocity) with
  | some y =>
    refine ⟨y, rfl, normal_iff.mpr fun v _ => ?_⟩
    rw [SymMatrix.mulVec_of_solve? hy]
  | none =>
    have hnot : ¬ (matrix columns damping).PosDef := by
      rw [← SymMatrix.isSome_solve?_iff _ (.ofAxes velocity), hy]
      exact Bool.false_ne_true
    have hzero : damping = 0 := by
      by_contra hne
      exact hnot (posDef_matrix (.inl (lt_of_le_of_ne hdamping (Ne.symm hne))))
    have hsingular := hapart hzero fun hunit => hnot (posDef_matrix (.inr hunit))
    obtain ⟨y, hsolve, hdot⟩ :=
      SymMatrix.exists_solveWithin? (posDef_compress_reach hsingular damping) (.ofAxes velocity)
    refine ⟨y, ?_, normal_iff.mpr ((spanned_reach hsingular).dot_eq hdot)⟩
    rw [hsolve]
    rfl

/-! ## two joints for one axis -/

/-- One unit along the first axis. -/
def push : Axes ℝ := ⟨1, 0, 0, 0, 0, 0⟩

/-- Two joints that both slide the tip along the first axis. -/
def twins : List (Axes ℝ) := [push, push]

theorem components_push : push.components = Pi.single 0 1 := by
  funext i
  fin_cases i <;> rfl

theorem jacobian_twins : jacobian twins = vecMulVec (Pi.single 0 1) fun _ => 1 := by
  ext i k
  have hk : twins[k] = push := by fin_cases k <;> rfl
  rw [jacobian, of_apply, hk, components_push, vecMulVec_apply, mul_one]

theorem gram_twins_mulVec (v : Fin 6 → ℝ) : gram twins *ᵥ v = Pi.single 0 (2 * v 0) := by
  have hones : (fun _ : Fin twins.length => (1 : ℝ)) ⬝ᵥ (fun _ => 1) = 2 := by
    rw [dotProduct, Finset.sum_const, Finset.card_univ, Fintype.card_fin]
    norm_num [twins]
  rw [gram, jacobian_twins, transpose_vecMulVec, vecMulVec_mul_vecMulVec, hones, vecMulVec_mulVec,
    smul_dotProduct, single_one_dotProduct, op_smul_eq_smul, ← Pi.single_smul, smul_eq_mul,
    smul_eq_mul, mul_one]

/-- The only singular value that is not zero belongs to the axis that the joints share. -/
theorem eq_two_of_isSingularValue {σ : ℝ} (h : IsSingularValue (gram twins) σ) : σ = 2 := by
  have hsymm : (gram twins)ᵀ = gram twins := by rw [gram, transpose_mul, transpose_transpose]
  obtain ⟨v, u, hv, hvu, huv⟩ := h.pair
  rw [hsymm, gram_twins_mulVec] at huv
  rw [gram_twins_mulVec] at hvu
  have hu0 : 2 * v 0 = σ * u 0 := by simpa using congrFun hvu 0
  have hv0 : 2 * u 0 = σ * v 0 := by simpa using congrFun huv 0
  have hne : v 0 ≠ 0 := by
    intro h0
    refine hv (funext fun i => ?_)
    by_cases hi : i = 0
    · rw [hi, h0, Pi.zero_apply]
    · have hvi := congrFun huv i
      rw [Pi.single_eq_of_ne hi, Pi.smul_apply, smul_eq_mul] at hvi
      exact (mul_eq_zero.mp hvi.symm).resolve_left h.pos.ne'
  have hsq : (σ - 2) * (σ + 2) * v 0 = 0 := by linear_combination -2 * hu0 - σ * hv0
  have hσ := (mul_eq_zero.mp hsq).resolve_right hne
  rcases mul_eq_zero.mp hσ with h2 | h2
  · linarith
  · linarith [h.pos]

theorem not_isUnit_gram_twins : ¬ IsUnit (gram twins) := by
  intro hunit
  have hker : gram twins *ᵥ Pi.single 1 1 = gram twins *ᵥ 0 := by
    rw [gram_twins_mulVec, gram_twins_mulVec]
    rfl
  have h1 := congrFun (mulVec_injective_of_isUnit hunit hker) 1
  simp at h1

theorem normal_twins :
    LeastSquares.Normal (jacobian twins) push.components 0 (Pi.single 0 (1 / 2)) := by
  rw [normal_zero_iff, mulVec_mulVec]
  have hgram := gram_twins_mulVec (Pi.single 0 (1 / 2))
  rw [gram, Pi.single_eq_same, mul_one_div_cancel two_ne_zero] at hgram
  rw [hgram, components_push, sub_self, mulVec_zero]

/-! ## the main statement -/

/-- **Joint velocities are damped least squares.** For a damping that is not negative, and where
without damping `J Jᵀ` is singular if its singular values exceed the tolerance, they are the shortest
minimiser. With damping it is the only one and comes from elimination; without damping it is exact
for a regular `J Jᵀ`, and the product with the pseudo-inverse of `J` otherwise. -/
theorem joint_velocities_are_least_norm (columns : List (Axes ℝ)) {damping : ℝ} (velocity : Axes ℝ)
    (hdamping : 0 ≤ damping) (hapart : damping = 0 → ¬ IsUnit (gram columns) →
      ∀ σ, IsSingularValue (gram columns) σ → tolerance < σ) :
    LeastNorm (jacobian columns) velocity.components damping
        (jointVelocities columns (solve columns damping velocity)) ∧
      (0 < damping →
        (∃ y, (matrix columns damping).solve? (.ofAxes velocity) = some y ∧
          solve columns damping velocity = y.toAxes) ∧
        ∀ v, (∀ w, cost (jacobian columns) velocity.components damping v ≤
            cost (jacobian columns) velocity.components damping w) →
          v = jointVelocities columns (solve columns damping velocity)) ∧
      (damping = 0 → IsUnit (gram columns) →
        jacobian columns *ᵥ jointVelocities columns (solve columns damping velocity) =
          velocity.components) ∧
      (damping = 0 → ¬ IsUnit (gram columns) →
        ∃ P, IsPseudoInverse (jacobian columns) P ∧
          jointVelocities columns (solve columns damping velocity) = P *ᵥ velocity.components) := by
  obtain ⟨y, hsolve, hnormal⟩ := normal_solve columns velocity hdamping hapart
  rw [hsolve, jointVelocities_toAxes]
  refine ⟨leastNorm_of_normal hnormal, fun hpos => ⟨?_, ?_⟩, fun hzero hunit => ?_,
    fun hzero hsingular => ?_⟩
  · rw [← hsolve]
    exact solve_of_posDef (posDef_matrix (.inl hpos)) velocity
  · intro v hv
    exact unique_of_normal hnormal hpos (hv _)
  · rw [hzero] at hnormal
    exact mulVec_eq_of_normal hunit hnormal
  · rw [hzero] at hnormal
    obtain ⟨P, hP, hPx⟩ := exists_isPseudoInverse (J := jacobian columns) fun x => by
      obtain ⟨v, rfl⟩ := components_surjective x
      obtain ⟨y, -, hy⟩ := normal_solve columns v le_rfl fun _ _ => hapart hzero hsingular
      exact ⟨y.entries, hy⟩
    exact ⟨P, hP, hPx _ _ hnormal⟩

/-- Each of two joints for one axis does half of what is asked along the axis. -/
theorem twins_share_push :
    (∃ P, IsPseudoInverse (jacobian twins) P ∧
      jointVelocities twins (solve twins 0 push) = P *ᵥ push.components) ∧
      jointVelocities twins (solve twins 0 push) = fun _ => 1 / 2 := by
  have hapart : ∀ σ, IsSingularValue (gram twins) σ → tolerance < σ := by
    intro σ hσ
    rw [eq_two_of_isSingularValue hσ, tolerance, Scalar.negPowTen_real]
    norm_num
  obtain ⟨hleast, -, -, hpseudo⟩ :=
    joint_velocities_are_least_norm twins push le_rfl fun _ _ => hapart
  refine ⟨hpseudo rfl not_isUnit_gram_twins, ?_⟩
  rw [hleast.unique (leastNorm_of_normal normal_twins), jacobian_twins, transpose_vecMulVec,
    vecMulVec_mulVec, single_one_dotProduct, op_smul_eq_smul, Pi.single_eq_same]
  funext k
  exact mul_one _

end TaskSpace

end ArmServo
