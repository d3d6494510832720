import Mathlib
import ArmServo.Proofs.Motion.Joints
import ArmServo.Proofs.Motion.TaskSpace

/-!
# Joint speed through singularities

With a damping `λ` the joint velocities `u` for a Cartesian velocity `ẋ` stay below `‖ẋ‖ / (2 λ)`,
whatever the rank of the Jacobian is. Damped least squares splits `ẋ` into `J u + λ² y` with
`u = Jᵀ y`, and `‖J u + λ² y‖` exceeds `2 λ ‖u‖` by as much as `J u` and `λ² y` differ. A joint that
is within its limits is stopped by them on its way, so that it reports no more than it was given.

Main statement: `joint_speed_is_bounded`.
-/

namespace ArmServo

open Matrix

/-! ## damping -/

namespace LeastSquares

variable {m n : Type} [Fintype m] [Fintype n] {J : Matrix m n ℝ} {x y : m → ℝ} {damping : ℝ}

/-- The length of a vector. -/
noncomputable def length (v : n → ℝ) : ℝ := √(v ⬝ᵥ v)

theorem length_nonneg (v : n → ℝ) : 0 ≤ length v := Real.sqrt_nonneg _

theorem length_mul_self (v : n → ℝ) : length v * length v = v ⬝ᵥ v :=
  Real.mul_self_sqrt (dot_self_nonneg v)

theorem length_le_length {v : n → ℝ} {w : m → ℝ} (h : v ⬝ᵥ v ≤ w ⬝ᵥ w) : length v ≤ length w :=
  Real.sqrt_le_sqrt h

theorem mul_length_le {v : n → ℝ} {w : m → ℝ} {a : ℝ} (ha : 0 ≤ a)
    (h : a ^ 2 * (v ⬝ᵥ v) ≤ w ⬝ᵥ w) : a * length v ≤ length w := by
  have hsqrt : a * length v = √(a ^ 2 * (v ⬝ᵥ v)) := by
    rw [Real.sqrt_mul (sq_nonneg a), Real.sqrt_sq ha, length]
  rw [hsqrt]
  exact Real.sqrt_le_sqrt h

/-- The part of `ẋ` that the joints do and the part that damping takes, in squares. -/
theorem dot_self_of_split (hx : J *ᵥ (Jᵀ *ᵥ y) + damping ^ 2 • y = x) :
    x ⬝ᵥ x = (J *ᵥ (Jᵀ *ᵥ y)) ⬝ᵥ (J *ᵥ (Jᵀ *ᵥ y)) +
      2 * damping ^ 2 * ((Jᵀ *ᵥ y) ⬝ᵥ (Jᵀ *ᵥ y)) + damping ^ 4 * (y ⬝ᵥ y) := by
  have hu : y ⬝ᵥ (J *ᵥ (Jᵀ *ᵥ y)) = (Jᵀ *ᵥ y) ⬝ᵥ (Jᵀ *ᵥ y) := (transpose_mulVec_dot J y _).symm
  rw [← hx]
  simp only [add_dotProduct, dotProduct_add, smul_dotProduct, dotProduct_smul, smul_eq_mul,
    dotProduct_comm (J *ᵥ (Jᵀ *ᵥ y)) y, hu]
  ring

theorem two_mul_damping_le (hdamping : 0 ≤ damping)
    (hx : J *ᵥ (Jᵀ *ᵥ y) + damping ^ 2 • y = x) :
    2 * damping * length (Jᵀ *ᵥ y) ≤ length x := by
  refine mul_length_le (by positivity) ?_
  have hu : y ⬝ᵥ (J *ᵥ (Jᵀ *ᵥ y)) = (Jᵀ *ᵥ y) ⬝ᵥ (Jᵀ *ᵥ y) := (transpose_mulVec_dot J y _).symm
  have hgap := dot_self_nonneg (J *ᵥ (Jᵀ *ᵥ y) - damping ^ 2 • y)
  simp only [sub_dotProduct, dotProduct_sub, smul_dotProduct, dotProduct_smul, smul_eq_mul,
    dotProduct_comm (J *ᵥ (Jᵀ *ᵥ y)) y, hu] at hgap
  rw [dot_self_of_split hx]
  linarith

theorem length_mulVec_le (hx : J *ᵥ (Jᵀ *ᵥ y) + damping ^ 2 • y = x) :
    length (J *ᵥ (Jᵀ *ᵥ y)) ≤ length x := by
  have hu := mul_nonneg (sq_nonneg damping) (dot_self_nonneg (Jᵀ *ᵥ y))
  have hy := mul_nonneg (by positivity : 0 ≤ damping ^ 4) (dot_self_nonneg y)
  refine length_le_length ?_
  rw [dot_self_of_split hx]
  linarith

theorem dot_mulVec_nonneg (hx : J *ᵥ (Jᵀ *ᵥ y) + damping ^ 2 • y = x) :
    0 ≤ x ⬝ᵥ (J *ᵥ (Jᵀ *ᵥ y)) := by
  have hu : y ⬝ᵥ (J *ᵥ (Jᵀ *ᵥ y)) = (Jᵀ *ᵥ y) ⬝ᵥ (Jᵀ *ᵥ y) := (transpose_mulVec_dot J y _).symm
  rw [← hx, add_dotProduct, smul_dotProduct, smul_eq_mul, hu]
  exact add_nonneg (dot_self_nonneg _) (mul_nonneg (sq_nonneg damping) (dot_self_nonneg _))

end LeastSquares

open LeastSquares

namespace TaskSpace

/-- With damping the split is that of the joint velocities that are solved for. -/
theorem split_solve (columns : List (Axes ℝ)) {damping : ℝ} (hdamping : 0 < damping)
    (velocity : Axes ℝ) : ∃ y : Fin 6 → ℝ,
      jointVelocities columns (solve columns damping velocity) = (jacobian columns)ᵀ *ᵥ y ∧
      jacobian columns *ᵥ ((jacobian columns)ᵀ *ᵥ y) + damping ^ 2 • y = velocity.components := by
  have hmatrix : (matrix columns damping).PosDef := posDef_matrix (.inl hdamping)
  obtain ⟨y, hy, hsolve⟩ := solve_of_posDef hmatrix velocity
  refine ⟨y.entries, by rw [hsolve, jointVelocities_toAxes], ?_⟩
  rw [← entries_matrix_mulVec, SymMatrix.mulVec_of_solve? hy, entries_ofAxes]

end TaskSpace

/-! ## limits -/

/-- A clamp stops a position that comes from within the limits on its way. -/
theorem Limits.mem_uIcc_of_clamp? {l : Limits ℝ} {q x y : ℝ} (hq : l.contains q = true)
    (h : l.clamp? x = some y) : y ∈ Set.uIcc q x := by
  cases l with
  | free =>
    cases h
    exact Set.right_mem_uIcc
  | range lower upper =>
    simp only [contains, Bool.and_eq_true, decide_eq_true_eq] at hq
    simp only [clamp?, clampBetween?, hq.1.trans hq.2, if_true, Option.some.injEq] at h
    rw [Set.mem_uIcc, ← h]
    split_ifs with hlower hupper hupper
    · exact absurd (hq.1.trans hq.2) (not_le.mpr hupper)
    · exact .inr ⟨hlower.le, hq.1⟩
    · exact .inl ⟨hq.2, hupper.le⟩
    · exact (le_total q x).imp (fun h => ⟨h, le_rfl⟩) (fun h => ⟨le_rfl, h⟩)

theorem Limits.isValid_of_within {ls : List (Limits ℝ)} {qs : List ℝ}
    (hq : List.Forall₂ (fun l q => l.contains q = true) ls qs) : ∀ l ∈ ls, l.isValid = true := by
  induction hq with
  | nil => exact fun _ h => (List.not_mem_nil h).elim
  | @cons l q _ _ hl _ ih =>
    refine List.forall_mem_cons.mpr ⟨?_, ih⟩
    cases l with
    | free => rfl
    | range lower upper =>
      simp only [contains, Bool.and_eq_true, decide_eq_true_eq] at hl
      exact decide_eq_true (hl.1.trans hl.2)

namespace Solver

theorem abs_le_of_moveJoint? {l : Limits ℝ} {dt q u x v : ℝ} (hdt : 0 < dt)
    (hq : l.contains q = true) (h : moveJoint? l dt q u = some (x, v)) : |v| ≤ |u| := by
  have hx := exact_of_moveJoint? hdt.ne' h
  have hway := Set.abs_sub_left_of_mem_uIcc
    (Limits.mem_uIcc_of_clamp? hq (moveJoint?_eq_some.mp h).1)
  rw [hx, add_sub_cancel_left, add_sub_cancel_left, abs_mul, abs_mul] at hway
  exact le_of_mul_le_mul_right hway (abs_pos.mpr hdt.ne')

/-- Joints within their limits report no more than they were given, in squares. -/
theorem Moves.sum_squares_le {dt : ℝ} {ls : List (Limits ℝ)} {qs us : List ℝ} {m : Motion ℝ}
    (h : Moves dt ls qs us m) (hdt : 0 < dt)
    (hq : List.Forall₂ (fun l q => l.contains q = true) ls qs) :
    (m.velocities.map fun v => v * v).sum ≤ (us.map fun u => u * u).sum := by
  induction h with
  | nil => exact le_rfl
  | cons hjoint _ ih =>
    cases hq with
    | cons hl hq =>
      simp only [List.map_cons, List.sum_cons]
      exact add_le_add (abs_le_iff_mul_self_le.mp (abs_le_of_moveJoint? hdt hl hjoint)) (ih hq)

theorem Moves.positions {dt : ℝ} {ls : List (Limits ℝ)} {qs us : List ℝ} {m : Motion ℝ}
    (h : Moves dt ls qs us m) (hdt : 0 < dt) :
    List.Forall₂ (fun q x => ∃ v ∈ m.velocities, x = q + v * dt) qs m.positions := by
  induction h with
  | nil => exact .nil
  | cons hjoint _ ih =>
    refine .cons ⟨_, List.mem_cons_self, exact_of_moveJoint? hdt.ne' hjoint⟩ (ih.imp ?_)
    rintro q x ⟨v, hv, hx⟩
    exact ⟨v, List.mem_cons_of_mem _ hv, hx⟩

/-! ## lists of velocities -/

theorem dot_self_get (vs : List ℝ) : vs.get ⬝ᵥ vs.get = (vs.map fun v => v * v).sum := by
  rw [← Fin.sum_univ_fun_getElem]
  rfl

theorem dot_self_jointVelocities (columns : List (Axes ℝ)) (y : Axes ℝ) :
    TaskSpace.jointVelocities columns y ⬝ᵥ TaskSpace.jointVelocities columns y =
      ((columns.map (·.dot y)).map fun u => u * u).sum := by
  rw [List.map_map, ← Fin.sum_univ_fun_getElem]
  rfl

theorem abs_le_length {vs : List ℝ} {v : ℝ} (hv : v ∈ vs) : |v| ≤ length vs.get := by
  refine abs_le_of_sq_le_sq ?_ (length_nonneg _)
  rw [sq, sq, length_mul_self, dot_self_get]
  refine List.single_le_sum ?_ _ (List.mem_map_of_mem hv)
  intro w hw
  obtain ⟨z, -, rfl⟩ := List.mem_map.mp hw
  exact mul_self_nonneg z

/-! ## the main statement -/

theorem step_run_of_moved {s : Solver ℝ} {columns : List (Axes ℝ)} {period : Period}
    {velocity : Axes ℝ} {solve : TaskSpace.Method ℝ} {m : Motion ℝ} (hp : period.isZero = false)
    (hj : s.chain.jacobian? s.motion.positions s.jacobian = .ok columns)
    (hm : s.moved? columns period velocity solve = some m) :
    (step period velocity solve).run s =
      (.ok (), { s with jacobian := columns, motion := m }) :=
  (Steps.moved hp hj hm).run_eq

/-- **Joint speed is bounded through singularities.** With damping, the solved joint velocities `u`,
by which a step moves the joints, are at most `‖ẋ‖ / (2 λ)` long, and they move the tip by at most
`‖ẋ‖` and never against `ẋ`. If all joints are within their limits then the step succeeds, the
velocities that it reports are bounded in the same way, and so is the way of every joint. A range has
two real ends here; none of them is infinite. -/
theorem joint_speed_is_bounded {s : Solver ℝ} (hs : s.Shaped) (hdamping : 0 < s.damping)
    {period : Period} (hperiod : period.isZero = false) (velocity : Axes ℝ) :
    ∃ columns, s.chain.jacobian? s.motion.positions s.jacobian = .ok columns ∧
      (∃ u, u = TaskSpace.jointVelocities columns (TaskSpace.solve columns s.damping velocity) ∧
        s.moved? columns period velocity TaskSpace.solve =
          moveJoints? period.seconds s.limits s.motion.positions (List.ofFn u) ∧
        2 * s.damping * length u ≤ length velocity.components ∧
        length (TaskSpace.jacobian columns *ᵥ u) ≤ length velocity.components ∧
        0 ≤ velocity.components ⬝ᵥ (TaskSpace.jacobian columns *ᵥ u)) ∧
      (List.Forall₂ (fun l q => l.contains q = true) s.limits s.motion.positions →
        ∃ t, (step period velocity).run s = (.ok (), t) ∧
          2 * s.damping * length t.motion.velocities.get ≤ length velocity.components ∧
          List.Forall₂ (fun q x =>
              |x - q| ≤ length velocity.components * period.seconds / (2 * s.damping))
            s.motion.positions t.motion.positions) := by
  obtain ⟨columns, hj⟩ := hs.jacobian?
  obtain ⟨y, hu, hsplit⟩ := TaskSpace.split_solve columns hdamping velocity
  have hspeed := two_mul_damping_le hdamping.le hsplit
  refine ⟨columns, hj, ⟨_, rfl, TaskSpace.moved?_eq s columns period velocity, ?_⟩, fun hq => ?_⟩
  · rw [hu]
    exact ⟨hspeed, length_mulVec_le hsplit, dot_mulVec_nonneg hsplit⟩
  · have hdt := Period.seconds_pos hperiod
    obtain ⟨m, hm⟩ : ∃ m, s.moved? columns period velocity TaskSpace.solve = some m :=
      exists_moveJoints? (Limits.isValid_of_within hq) _ _ _
    have hmoves := hs.moves hj hm
    have hbound : 2 * s.damping * length m.velocities.get ≤ length velocity.components := by
      refine le_trans (mul_le_mul_of_nonneg_left (length_le_length ?_) (by positivity)) hspeed
      rw [← hu, dot_self_get, dot_self_jointVelocities]
      exact hmoves.sum_squares_le hdt hq
    refine ⟨_, step_run_of_moved hperiod hj hm, hbound, (hmoves.positions hdt).imp ?_⟩
    rintro q x ⟨v, hv, rfl⟩
    have hv : 2 * s.damping * |v| ≤ length velocity.components :=
      (mul_le_mul_of_nonneg_left (abs_le_length hv) (by positivity)).trans hbound
    rw [add_sub_cancel_left, abs_mul, abs_of_pos hdt, le_div_iff₀ (by positivity)]
    calc |v| * period.seconds * (2 * s.damping) = 2 * s.damping * |v| * period.seconds := by ring
      _ ≤ length velocity.components * period.seconds := mul_le_mul_of_nonneg_right hv hdt.le

/-- Two slides along one axis, the inner one at its upper limit, for which `J Jᵀ` is singular. -/
noncomputable def twinSlides : Solver ℝ where
  chain := ⟨"floor", [⟨"inner", "carriage", .prismatic, ⟨1, 0, 0⟩, .one, .range 0 1⟩,
    ⟨"outer", "tool", .prismatic, ⟨1, 0, 0⟩, .one, .free⟩]⟩
  limits := [.range 0 1, .free]
  damping := Scalar.half
  jacobian := [.zero, .zero]
  motion := ⟨[1, 0], [0, 0]⟩

theorem twinSlides_within : twinSlides.Shaped ∧
    List.Forall₂ (fun l q => l.contains q = true) twinSlides.limits twinSlides.motion.positions := by
  refine ⟨⟨rfl, rfl, rfl, rfl⟩, .cons ?_ (.cons ?_ .nil)⟩
  · simp [Limits.contains]
  · simp [Limits.contains]

/-- Pushed against its limit for a second, the pair moves by no more than its share of the push. -/
theorem twinSlides_speed : twinSlides.Shaped ∧ 0 < twinSlides.damping ∧
    List.Forall₂ (fun l q => l.contains q = true) twinSlides.limits twinSlides.motion.positions ∧
    ∃ t, (step ⟨1000000000⟩ TaskSpace.push).run twinSlides = (.ok (), t) ∧
      length t.motion.velocities.get ≤ 1 := by
  obtain ⟨hs, hq⟩ := twinSlides_within
  have hhalf : twinSlides.damping = 1 / 2 := Scalar.half_real
  have hdamping : 0 < twinSlides.damping := hhalf ▸ one_half_pos
  have hperiod : Period.isZero ⟨1000000000⟩ = false := rfl
  obtain ⟨_, -, -, hmoved⟩ := joint_speed_is_bounded hs hdamping hperiod TaskSpace.push
  obtain ⟨t, ht, hspeed, -⟩ := hmoved hq
  have hdouble : 2 * twinSlides.damping = 1 := hhalf ▸ mul_one_div_cancel two_ne_zero
  have hpush : length TaskSpace.push.components = 1 := by
    rw [TaskSpace.components_push, length, single_one_dotProduct, Pi.single_eq_same, Real.sqrt_one]
  rw [hdouble, one_mul, hpush] at hspeed
  exact ⟨hs, hdamping, hq, t, ht, hspeed⟩

end Solver

end ArmServo
