import ArmServo.Proofs.Chain.Mounting
import ArmServo.Proofs.Chain.Pointwise
import ArmServo.Proofs.Motion.Speed
import ArmServo.Proofs.Scalar.Real

/-!
# A step is one clamped integration

All joints move at once: each of them from its old position by the velocity that is solved for at
the old positions, and to its limits where that leads beyond them. The velocity that a joint reports
leads from its old to its new position, so that from within its limits a joint is at most slowed
down, and one that rests at an end of them stays there when it is pushed outwards.

Limits that are infinite on one side only are ranges over the extended real numbers; a joint does
not notice the difference.

Main statement: `step_is_clamped_integration`.
-/

namespace ArmServo

/-! ## one joint -/

/-- What a step of `dt` seconds does to a joint at `q` that is given the velocity `u`: it is then at
`x` and reports `v`. -/
structure Limits.Takes {α : Type} [Scalar α] (l : Limits α) (dt q u x v : α) : Prop where
  clamped : l.clamp? (q + u * dt) = some x
  reached : x = q + v * dt
  /-- From within its limits a joint is never turned round. -/
  between : l.contains q = true → 0 ≤ v ∧ v ≤ u ∨ u ≤ v ∧ v ≤ 0
  /-- At an end of its limits a joint that is pushed outwards stays. -/
  resting : ∀ lower upper, l = .range lower upper →
    q = upper ∧ 0 ≤ u ∨ q = lower ∧ u ≤ 0 → v = 0 ∧ x = q

theorem within_of_pushed {α : Type} [Preorder α] {lower upper q : α} {up down : Prop}
    (hle : lower ≤ upper) (h : q = upper ∧ up ∨ q = lower ∧ down) : lower ≤ q ∧ q ≤ upper := by
  rcases h with ⟨rfl, -⟩ | ⟨rfl, -⟩
  · exact ⟨hle, le_rfl⟩
  · exact ⟨le_rfl, hle⟩

section Way

variable {dt q u v : ℝ}

/-- The velocity on a way of `dt` seconds that ends before `u` would lead further. -/
theorem between_of_mem_uIcc (hdt : 0 < dt) (h : q + v * dt ∈ Set.uIcc q (q + u * dt)) :
    0 ≤ v ∧ v ≤ u ∨ u ≤ v ∧ v ≤ 0 := by
  rw [Set.mem_uIcc] at h
  rcases h with ⟨hlow, hhigh⟩ | ⟨hlow, hhigh⟩
  · exact .inl ⟨nonneg_of_mul_nonneg_left (by linarith) hdt,
      le_of_mul_le_mul_right (by linarith) hdt⟩
  · exact .inr ⟨le_of_mul_le_mul_right (by linarith) hdt,
      nonpos_of_mul_nonpos_left (by linarith) hdt⟩

/-- A joint that does not get further in the direction in which it is pushed stands still. -/
theorem eq_zero_of_pushed (hdt : 0 < dt) (hbetween : 0 ≤ v ∧ v ≤ u ∨ u ≤ v ∧ v ≤ 0)
    (hstop : q + v * dt ≤ q ∧ 0 ≤ u ∨ q ≤ q + v * dt ∧ u ≤ 0) : v = 0 := by
  rcases hstop with ⟨hx, hu⟩ | ⟨hx, hu⟩
  · have hv : v ≤ 0 := nonpos_of_mul_nonpos_left (by linarith) hdt
    rcases hbetween with ⟨hpos, -⟩ | ⟨hle, -⟩ <;> linarith
  · have hv : 0 ≤ v := nonneg_of_mul_nonneg_left (by linarith) hdt
    rcases hbetween with ⟨-, hle⟩ | ⟨-, hneg⟩ <;> linarith

end Way

theorem Limits.between_of_clamp? {lower upper x y : ℝ}
    (h : (Limits.range lower upper).clamp? x = some y) : lower ≤ y ∧ y ≤ upper := by
  change clampBetween? lower upper x = some y at h
  unfold clampBetween? at h
  split at h
  case isTrue hle =>
    cases h
    split_ifs with hlower hupper hupper
    · exact ⟨hle, le_rfl⟩
    · exact ⟨le_rfl, hle⟩
    · exact ⟨hle, le_rfl⟩
    · exact ⟨not_lt.mp hlower, not_lt.mp hupper⟩
  case isFalse => cases h

/-- One joint is moved like this, whatever its limits and wherever it is. -/
theorem Solver.takes_of_moveJoint? {l : Limits ℝ} {dt q u x v : ℝ} (hdt : 0 < dt)
    (h : moveJoint? l dt q u = some (x, v)) : l.Takes dt q u x v := by
  have hclamp := (moveJoint?_eq_some.mp h).1
  have hreached := exact_of_moveJoint? hdt.ne' h
  have hbetween (hq : l.contains q = true) : 0 ≤ v ∧ v ≤ u ∨ u ≤ v ∧ v ≤ 0 :=
    between_of_mem_uIcc hdt (hreached ▸ Limits.mem_uIcc_of_clamp? hq hclamp)
  refine ⟨hclamp, hreached, hbetween, ?_⟩
  rintro lower upper rfl hpushed
  obtain ⟨hlower, hupper⟩ := Limits.between_of_clamp? hclamp
  have hends := within_of_pushed (hlower.trans hupper) hpushed
  have hv : v = 0 := by
    refine eq_zero_of_pushed (q := q) hdt (hbetween (by simp [Limits.contains, hends])) ?_
    rw [← hreached]
    rcases hpushed with ⟨rfl, hu⟩ | ⟨rfl, hu⟩
    · exact .inl ⟨hupper, hu⟩
    · exact .inr ⟨hlower, hu⟩
  refine ⟨hv, ?_⟩
  rw [hreached, hv, zero_mul, add_zero]

/-! ## limits at infinity -/

theorem Limits.clamp?_ereal {lower upper : EReal} (hle : lower ≤ upper) (x : EReal) :
    (Limits.range lower upper).clamp? x = some (max lower (min x upper)) := by
  change clampBetween? lower upper x = _
  unfold clampBetween?
  rw [if_pos hle]
  refine congrArg some ?_
  rcases lt_or_ge x lower with hx | hx
  · rw [if_pos hx, if_neg hle.not_gt, min_eq_left (hx.le.trans hle), max_eq_left hx.le]
  · rw [if_neg hx.not_gt]
    rcases lt_or_ge upper x with hx' | hx'
    · rw [if_pos hx', min_eq_right hx'.le, max_eq_right hle]
    · rw [if_neg hx'.not_gt, min_eq_left hx', max_eq_right hx]

theorem clamp_mem_uIcc {lower upper q x : EReal} (hq : lower ≤ q ∧ q ≤ upper) :
    max lower (min x upper) ∈ Set.uIcc q x := by
  rw [Set.mem_uIcc]
  rcases le_total q x with h | h
  · exact .inl ⟨le_max_of_le_right (le_min h hq.2), max_le (hq.1.trans h) (min_le_left _ _)⟩
  · exact .inr ⟨le_max_of_le_right (le_min le_rfl (h.trans hq.2)),
      max_le hq.1 ((min_le_left _ _).trans h)⟩

theorem exists_coe_of_mem_uIcc {a b : ℝ} {x : EReal} (h : x ∈ Set.uIcc (a : EReal) b) :
    ∃ y : ℝ, x = y := by
  induction x with
  | coe y => exact ⟨y, rfl⟩
  | bot => simp [Set.mem_uIcc] at h
  | top => simp [Set.mem_uIcc] at h

/-- A way of some time that ends at a real number is taken at a real velocity. -/
theorem exists_coe_of_reached {dt q x : ℝ} {v : EReal} (hdt : 0 < dt)
    (h : (x : EReal) = q + v * dt) : ∃ w : ℝ, v = w := by
  induction v with
  | coe w => exact ⟨w, rfl⟩
  | bot => simp [EReal.bot_mul_coe_of_pos hdt] at h
  | top => simp [EReal.top_mul_coe_of_pos hdt] at h

/-- The velocity that is reported leads to the new position, be it infinite. -/
theorem Solver.exact_of_moveJoint?_ereal {l : Limits EReal} {dt q : ℝ} {u x v : EReal}
    (hdt : 0 < dt) (h : moveJoint? l (dt : EReal) q u = some (x, v)) : x = q + v * dt := by
  obtain ⟨-, rfl⟩ := moveJoint?_eq_some.mp h
  simp only [Scalar.beq_ereal, decide_eq_true_eq]
  by_cases he : x = q + u * dt
  · rw [if_pos he]
    exact he
  · rw [if_neg he, EReal.div_mul_cancel (EReal.coe_ne_bot _) (EReal.coe_ne_top _)
      (EReal.coe_ne_zero.mpr hdt.ne'), add_comm]
    exact EReal.sub_add_cancel.symm

theorem Solver.takes_of_moveJoint?_ereal {lower upper : EReal} (hle : lower ≤ upper) {dt q u : ℝ}
    {x v : EReal} (hdt : 0 < dt)
    (h : moveJoint? (.range lower upper) (dt : EReal) q u = some (x, v)) :
    (Limits.range lower upper).Takes (dt : EReal) q u x v := by
  have hclamp := (moveJoint?_eq_some.mp h).1
  have hreached := exact_of_moveJoint?_ereal hdt h
  have hx : x = max lower (min ((q + u * dt : ℝ) : EReal) upper) :=
    Option.some.inj (hclamp.symm.trans (Limits.clamp?_ereal hle _))
  -- from within the limits all of this is real
  have hreal (hq : lower ≤ q ∧ (q : EReal) ≤ upper) : ∃ y w : ℝ,
      x = y ∧ v = w ∧ y = q + w * dt ∧ (0 ≤ w ∧ w ≤ u ∨ u ≤ w ∧ w ≤ 0) := by
    have hway := hx ▸ clamp_mem_uIcc (x := ((q + u * dt : ℝ) : EReal)) hq
    obtain ⟨y, rfl⟩ := exists_coe_of_mem_uIcc hway
    obtain ⟨w, rfl⟩ := exists_coe_of_reached hdt hreached
    have hy : y = q + w * dt := by exact_mod_cast hreached
    refine ⟨y, w, rfl, rfl, hy, between_of_mem_uIcc (q := q) hdt ?_⟩
    rw [← hy]
    simpa only [Set.mem_uIcc, EReal.coe_le_coe_iff] using hway
  refine ⟨hclamp, hreached, fun hq => ?_, ?_⟩
  · simp only [Limits.contains, Bool.and_eq_true, decide_eq_true_eq] at hq
    obtain ⟨y, w, -, rfl, -, hbetween⟩ := hreal hq
    exact_mod_cast hbetween
  · rintro _ _ ⟨⟩ hpushed
    obtain ⟨y, w, rfl, rfl, hy, hbetween⟩ := hreal (within_of_pushed hle hpushed)
    have hlower : lower ≤ y := hx ▸ le_max_left _ _
    have hupper : (y : EReal) ≤ upper := hx ▸ max_le hle (min_le_right _ _)
    have hw : w = 0 := by
      refine eq_zero_of_pushed (q := q) hdt hbetween ?_
      rw [← hy]
      rcases hpushed with ⟨rfl, hu⟩ | ⟨rfl, hu⟩
      · exact .inl ⟨by exact_mod_cast hupper, by exact_mod_cast hu⟩
      · exact .inr ⟨by exact_mod_cast hlower, by exact_mod_cast hu⟩
    rw [hy, hw, zero_mul, add_zero]
    exact ⟨rfl, rfl⟩

/-! ## all joints -/

namespace Solver

theorem Moves.getElem? {α : Type} [Scalar α] {dt : α} {ls : List (Limits α)} {qs us : List α}
    {m : Motion α} (h : Moves dt ls qs us m) {i : Nat} {l : Limits α} {q u : α}
    (hl : ls[i]? = some l) (hq : qs[i]? = some q) (hu : us[i]? = some u) :
    ∃ x v, m.positions[i]? = some x ∧ m.velocities[i]? = some v ∧
      moveJoint? l dt q u = some (x, v) := by
  induction h generalizing i with
  | nil => cases hl
  | cons hjoint _ ih =>
    cases i with
    | zero =>
      cases hl
      cases hq
      cases hu
      exact ⟨_, _, rfl, rfl, hjoint⟩
    | succ i => exact ih hl hq hu

/-- **A step is one clamped integration of all joints.** From any positions it succeeds, whatever
the old velocities and the buffer of the Jacobian hold, and with the Jacobian at the old positions
every joint takes its step from its old position, by the velocity that is solved for. A range that
is infinite on one side makes no difference to a joint. -/
theorem step_is_clamped_integration :
    (∀ (c : Chain ℝ) (damping : ℝ) (s : Solver ℝ), c.Obtained → ofChain? c damping = .ok s →
      ∀ (q : List ℝ) (period : Period) (velocity : Axes ℝ) (solve : TaskSpace.Method ℝ),
        q.length = c.dof → period.isZero = false → ∃ columns m,
          (∀ v out, out.length = c.dof → c.jacobian? q out = .ok columns ∧
            (step period velocity solve).run { s with jacobian := out, motion := ⟨q, v⟩ } =
              (.ok (), { s with jacobian := columns, motion := m })) ∧
          columns.length = c.dof ∧ m.positions.length = c.dof ∧ m.velocities.length = c.dof ∧
          ∀ (i : Nat) (l : Limits ℝ) (p : ℝ) (column : Axes ℝ), c.limits[i]? = some l →
            q[i]? = some p → columns[i]? = some column → ∃ x v,
              m.positions[i]? = some x ∧ m.velocities[i]? = some v ∧
              l.Takes period.seconds p (column.dot (solve columns damping velocity)) x v) ∧
    ∀ (lower upper : EReal) (dt q u : ℝ), lower ≤ upper → 0 < dt →
      ∃ x v, moveJoint? (.range lower upper) (dt : EReal) q u = some (x, v) ∧
        (Limits.range lower upper).Takes (dt : EReal) q u x v := by
  refine ⟨?steps, ?infinite⟩
  case steps =>
    intro c damping s hc hs q period velocity solve hq hperiod
    have hdamping : s.damping = damping := by rw [eq_of_ofChain? hs]
    have hlimits : s.limits = c.limits := by rw [eq_of_ofChain? hs]
    obtain ⟨hshaped, rfl⟩ := shaped_of_ofChain? hs
    obtain rfl := hdamping
    obtain ⟨columns, hj⟩ : ∃ columns, s.chain.jacobian? q s.jacobian = .ok columns :=
      ⟨_, Chain.jacobian?_eq_ok.mpr ⟨hq, hshaped.jacobian, rfl⟩⟩
    have hwidth := Chain.length_of_jacobian? hj
    have hvalid : ∀ l ∈ s.limits, l.isValid = true := by
      rw [hlimits, Chain.limits, List.forall_mem_map]
      exact hc.wellFormed.limits
    obtain ⟨m, hm⟩ := exists_moveJoints? hvalid (period.seconds : ℝ) q
      (columns.map (·.dot (solve columns s.damping velocity)))
    have hmoves := moves_of_moveJoints? hm (hq.trans hshaped.limits.symm)
      ((List.length_map _).trans (hwidth.trans hshaped.limits.symm))
    refine ⟨columns, m, fun v out hout => ?_, hwidth,
      hmoves.length_positions.trans hshaped.limits,
      hmoves.length_velocities.trans hshaped.limits, ?_⟩
    · have hj' := (Chain.jacobian?_congr q (hout.trans hshaped.jacobian.symm)).trans hj
      exact ⟨hj', step_run_of_moved hperiod hj' hm⟩
    · intro i l p column hl hp hcolumn
      rw [← hlimits] at hl
      have hu : (columns.map (·.dot (solve columns s.damping velocity)))[i]? =
          some (column.dot (solve columns s.damping velocity)) := by
        rw [List.getElem?_map, hcolumn, Option.map_some]
      obtain ⟨x, v, hx, hv, hjoint⟩ := hmoves.getElem? hl hp hu
      exact ⟨x, v, hx, hv, takes_of_moveJoint? (Period.seconds_pos hperiod) hjoint⟩
  case infinite =>
    intro lower upper dt q u hle hdt
    have hclamp := Limits.clamp?_ereal hle ((q : EReal) + u * dt)
    exact ⟨_, _, moveJoint?_eq_some.mpr ⟨hclamp, rfl⟩,
      takes_of_moveJoint?_ereal hle hdt (moveJoint?_eq_some.mpr ⟨hclamp, rfl⟩)⟩

/-! ## two slides, one of them at its end -/

theorem obtained_twinSlides : twinSlides.chain.Obtained := by
  have hnorm : Vec3.norm (⟨1, 0, 0⟩ : Vec3 ℝ) = 1 := Vec3.norm_eq_one (by norm_num [Vec3.dot])
  have hdivide : (⟨1, 0, 0⟩ : Vec3 ℝ).divide 1 = ⟨1, 0, 0⟩ := by simp [Vec3.divide, Vec3.map]
  have hmin : ¬ (1 : ℝ) < Chain.minimalAxis := not_lt.mpr (Scalar.negPowTen_real_le_one 9)
  have haccepted : Chain.ofSegments? "floor" twinSlides.chain.segments = .ok twinSlides.chain := by
    simp [twinSlides, Chain.ofSegments?, Chain.accept, Chain.normalized?, hnorm, hdivide, hmin,
      Segment.isActuated, JointKind.isActuated, bind, Except.bind, pure, Except.pure,
      Scalar.isFinite]
  exact .ofSegments haccepted

theorem jacobian?_twinSlides :
    twinSlides.chain.jacobian? [1, 0] [.zero, .zero] = .ok TaskSpace.twins := by
  refine Chain.jacobian?_eq_ok.mpr ⟨rfl, rfl, ?_⟩
  have hone : (Rotation.one : Rotation ℝ) * .one = .one :=
    congrArg Pose.rotation (Pose.one_mul .one)
  simp only [twinSlides, Chain.writeColumns, Segment.jointTransform, Pose.mul_rotation, Pose.one,
    Pose.ofDisplacement, Rotation.one_apply, hone]
  rfl

/-- Both slides get the same velocity, and not against the push. -/
theorem push_dot_solve_nonneg {damping : ℝ} (hdamping : 0 < damping) :
    0 ≤ TaskSpace.push.dot (TaskSpace.solve TaskSpace.twins damping TaskSpace.push) := by
  obtain ⟨y, hu, hsplit⟩ := TaskSpace.split_solve TaskSpace.twins hdamping TaskSpace.push
  have hnonneg := LeastSquares.dot_mulVec_nonneg hsplit
  have hsame : TaskSpace.jointVelocities TaskSpace.twins
      (TaskSpace.solve TaskSpace.twins damping TaskSpace.push) =
        fun _ => TaskSpace.push.dot (TaskSpace.solve TaskSpace.twins damping TaskSpace.push) := by
    funext k
    fin_cases k <;> rfl
  rw [← hu, hsame, TaskSpace.jacobian_twins, TaskSpace.components_push, Matrix.vecMulVec_mulVec,
    op_smul_eq_smul, dotProduct_smul, single_one_dotProduct, Pi.single_eq_same, smul_eq_mul,
    mul_one, dotProduct, Finset.sum_const, Finset.card_univ, Fintype.card_fin, one_mul,
    nsmul_eq_mul] at hnonneg
  exact nonneg_of_mul_nonneg_right hnonneg (by norm_num [TaskSpace.twins])

/-- Pushed outwards for a second, the slide at its end stays there; so does one that has a lower end
only. -/
theorem twinSlides_stay :
    (∃ m columns, (step ⟨1000000000⟩ TaskSpace.push).run twinSlides =
        (.ok (), { twinSlides with jacobian := columns, motion := m }) ∧
      m.positions[0]? = some 1 ∧ m.velocities[0]? = some 0) ∧
    moveJoint? (.range 0 ⊤) ((1 : ℝ) : EReal) (0 : ℝ) (-1 : ℝ) = some (((0 : ℝ) : EReal), 0) := by
  obtain ⟨hsteps, hends⟩ := step_is_clamped_integration
  constructor
  · have hdamping : 0 < twinSlides.damping := by norm_num [twinSlides]
    have hs : ofChain? twinSlides.chain twinSlides.damping =
        .ok { twinSlides with motion := .zeros 2 } :=
      if_neg (by simp [Scalar.isFinite, hdamping.le])
    obtain ⟨columns, m, hrun, -, -, -, hjoints⟩ := hsteps _ _ _ obtained_twinSlides hs [1, 0]
      ⟨1000000000⟩ TaskSpace.push TaskSpace.solve rfl rfl
    obtain ⟨hj, hstep⟩ := hrun [0, 0] [.zero, .zero] rfl
    cases hj.symm.trans jacobian?_twinSlides
    obtain ⟨x, v, hx, hv, htakes⟩ := hjoints 0 (.range 0 1) 1 TaskSpace.push rfl rfl rfl
    have hpushed := push_dot_solve_nonneg hdamping
    obtain ⟨rfl, rfl⟩ := htakes.resting 0 1 rfl (.inl ⟨rfl, hpushed⟩)
    exact ⟨m, TaskSpace.twins, hstep, hx, hv⟩
  · obtain ⟨x, v, hmove, htakes⟩ := hends 0 ⊤ 1 0 (-1) le_top one_pos
    obtain ⟨rfl, rfl⟩ := htakes.resting 0 ⊤ rfl (.inr ⟨rfl, by exact_mod_cast neg_one_lt_zero.le⟩)
    exact hmove

end Solver

end ArmServo
