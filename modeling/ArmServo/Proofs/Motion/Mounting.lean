import ArmServo.Proofs.Chain.Mounting
import ArmServo.Proofs.Motion.Speed

/-!
# Where an arm is mounted does not matter

A mount turns the columns of the Jacobian. A Cartesian velocity that is turned with them is answered
by a turned `y`, since the normal equation knows columns and velocity by their products only and, with
damping, has one solution. So the joints get the same velocities, and a limit that stops one of them
stops it in both arms: motions agree step by step.

Main statement: `motion_does_not_depend_on_mount`.
-/

namespace ArmServo

/-! ## the turned system -/

namespace TaskSpace

variable {columns : List (Axes ℝ)} {damping : ℝ} {r : Rotation ℝ}

theorem dot_matrix_mulVec_ofAxes (columns : List (Axes ℝ)) (damping : ℝ) (v w : Axes ℝ) :
    (Vec.ofAxes v).dot ((matrix columns damping).mulVec (.ofAxes w)) =
      (columns.map fun c => c.dot v * c.dot w).sum + damping * damping * v.dot w := by
  unfold matrix
  rw [SymMatrix.dot_addScalar_mulVec, dot_foldl_addOuter, SymMatrix.dot_zero_mulVec, zero_add]
  simp only [dot_ofAxes]

theorem mulVec_matrix_rotate (hr : r.IsUnit) {x y : Axes ℝ}
    (h : (matrix columns damping).mulVec (.ofAxes y) = .ofAxes x) :
    (matrix (columns.map r.rotate) damping).mulVec (.ofAxes (r.rotate y)) =
      .ofAxes (r.rotate x) := by
  refine Vec.ext_dot fun u => ?_
  obtain ⟨w, rfl⟩ : ∃ w, u = .ofAxes (r.rotate w) :=
    ⟨r.inverseRotate u.toAxes, by rw [Rotation.rotate_inverseRotate hr, ofAxes_toAxes]⟩
  have hw := congrArg (Vec.ofAxes w).dot h
  rw [dot_matrix_mulVec_ofAxes, dot_ofAxes] at hw
  rw [dot_matrix_mulVec_ofAxes, dot_ofAxes, List.map_map, Rotation.rotate_dot_rotate hr,
    Rotation.rotate_dot_rotate hr, ← hw]
  simp only [Function.comp_def, Rotation.rotate_dot_rotate hr]

/-- **With damping the turned system has the turned solution.** -/
theorem solve_rotate (hr : r.IsUnit) (columns : List (Axes ℝ)) (hdamping : 0 < damping)
    (x : Axes ℝ) :
    solve (columns.map r.rotate) damping (r.rotate x) = r.rotate (solve columns damping x) := by
  have hturned : (matrix (columns.map r.rotate) damping).PosDef := posDef_matrix (.inl hdamping)
  obtain ⟨y, hy, hsolve⟩ := solve_of_posDef (posDef_matrix (.inl hdamping)) x
  obtain ⟨y', hy', hsolve'⟩ := solve_of_posDef hturned (r.rotate x)
  have hsystem : (matrix columns damping).mulVec (.ofAxes y.toAxes) = .ofAxes x := by
    rw [ofAxes_toAxes]
    exact SymMatrix.mulVec_of_solve? hy
  have hsame : y' = .ofAxes (r.rotate y.toAxes) := hturned.mulVec_injective
    ((SymMatrix.mulVec_of_solve? hy').trans (mulVec_matrix_rotate hr hsystem).symm)
  rw [hsolve, hsolve', hsame, Vec.toAxes_ofAxes]

end TaskSpace

namespace Solver

/-- The motions after each of some steps, or the first failure. -/
def motions? {α : Type} [Scalar α] (s : Solver α) :
    List (Period × Axes α) → Except (Failure α) (List (Motion α))
  | [] => pure []
  | (period, velocity) :: rest => do
    let t ← s.step? period velocity
    let motions ← motions? t rest
    pure (t.motion :: motions)

/-! ## two solvers -/

/-- Two damped solvers in shape at the same motion, the second one for the chain of the first on a
mount. -/
structure OnMount (mount : Segment ℝ) (s s' : Solver ℝ) : Prop where
  chain : ∃ root, s'.chain = s.chain.mountedOn root mount
  rigid : ∀ segment ∈ s.chain.segments, segment.IsRigid
  limits : s'.limits = s.limits
  valid : ∀ l ∈ s.limits, l.isValid = true
  damping : s'.damping = s.damping
  damped : 0 < s.damping
  motion : s'.motion = s.motion
  shaped : s.Shaped
  shaped' : s'.Shaped

variable {mount : Segment ℝ} {s s' : Solver ℝ}

theorem OnMount.jacobian? (h : OnMount mount s s') (hfixed : ¬ mount.isActuated = true)
    (hmount : mount.origin.rotation.IsUnit) {columns : List (Axes ℝ)}
    (hj : s.chain.jacobian? s.motion.positions s.jacobian = .ok columns) :
    s'.chain.jacobian? s'.motion.positions s'.jacobian =
      .ok (columns.map mount.origin.rotation.rotate) := by
  obtain ⟨root, hchain⟩ := h.chain
  have hwidth : s'.jacobian.length = s.jacobian.length := by
    rw [h.shaped'.jacobian, h.shaped.jacobian, hchain, Chain.dof_mountedOn hfixed]
  rw [hchain, h.motion, Chain.jacobian?_mountedOn h.rigid hfixed hmount _ hwidth, hj]
  rfl

theorem OnMount.moved? (h : OnMount mount s s') (hmount : mount.origin.rotation.IsUnit)
    (columns : List (Axes ℝ)) (period : Period) (velocity : Axes ℝ) :
    s'.moved? (columns.map mount.origin.rotation.rotate) period
        (mount.origin.rotation.rotate velocity) TaskSpace.solve =
      s.moved? columns period velocity TaskSpace.solve := by
  unfold Solver.moved?
  rw [h.limits, h.motion, h.damping, TaskSpace.solve_rotate hmount columns h.damped, List.map_map]
  simp only [Function.comp_def, Rotation.rotate_dot_rotate hmount]

/-- **A step keeps the two alike.** -/
theorem OnMount.step? (h : OnMount mount s s') (hfixed : ¬ mount.isActuated = true)
    (hmount : mount.origin.rotation.IsUnit) {period : Period} (hp : period.isZero = false)
    (velocity : Axes ℝ) :
    ∃ t t', s.step? period velocity = .ok t ∧
      s'.step? period (mount.origin.rotation.rotate velocity) = .ok t' ∧ OnMount mount t t' := by
  obtain ⟨columns, hj⟩ := h.shaped.jacobian?
  obtain ⟨m, hm⟩ : ∃ m, s.moved? columns period velocity TaskSpace.solve = some m :=
    exists_moveJoints? h.valid _ _ _
  have hj' := h.jacobian? hfixed hmount hj
  have hm' := (h.moved? hmount columns period velocity).trans hm
  have hrun := step_run_of_moved hp hj hm
  have hrun' := step_run_of_moved hp hj' hm'
  refine ⟨_, _, by rw [Solver.step?, hrun]; rfl, by rw [Solver.step?, hrun']; rfl, ?_⟩
  exact { h with
    motion := rfl
    shaped := (Steps.moved hp hj hm).shaped h.shaped
    shaped' := (Steps.moved hp hj' hm').shaped h.shaped' }

theorem OnMount.motions? (h : OnMount mount s s') (hfixed : ¬ mount.isActuated = true)
    (hmount : mount.origin.rotation.IsUnit) {steps : List (Period × Axes ℝ)}
    (hsteps : ∀ x ∈ steps, x.1.isZero = false) :
    ∃ motions, s.motions? steps = .ok motions ∧
      s'.motions? (steps.map (Prod.map id mount.origin.rotation.rotate)) = .ok motions := by
  induction steps generalizing s s' with
  | nil => exact ⟨[], rfl, rfl⟩
  | cons x rest ih =>
    rw [List.forall_mem_cons] at hsteps
    obtain ⟨t, t', ht, ht', hnext⟩ := h.step? hfixed hmount hsteps.1 x.2
    obtain ⟨motions, hmotions, hmotions'⟩ := ih hnext hsteps.2
    refine ⟨t.motion :: motions, ?_, ?_⟩
    · rw [Solver.motions?, ht]
      show (t.motions? rest >>= _) = _
      rw [hmotions]
      rfl
    · rw [List.map_cons, Prod.map, Solver.motions?, id, ht']
      show (t'.motions? _ >>= _) = _
      rw [hmotions', hnext.motion]
      rfl

/-! ## the main statement -/

theorem ofChain?_of_pos (c : Chain ℝ) {damping : ℝ} (hdamping : 0 < damping) :
    ofChain? c damping = .ok ⟨c, c.limits, damping, c.jacobianBuffer, .zeros c.dof⟩ := by
  have hvalid : (!Scalar.isFinite damping || decide (damping < 0)) = false :=
    decide_eq_false (not_lt.mpr hdamping.le)
  unfold ofChain?
  rw [hvalid]
  rfl

/-- Solvers for a chain and for the same chain on a mount, both started from the same measurement. -/
theorem onMount_of_start {c : Chain ℝ} (hc : c.Made) {root : String}
    (hfixed : ¬ mount.isActuated = true) {damping : ℝ} (hdamping : 0 < damping)
    {measured : List (ℝ × ℝ)} (hmeasured : measured.length = c.dof) :
    ∃ s s' t t', ofChain? c damping = .ok s ∧ ofChain? (c.mountedOn root mount) damping = .ok s' ∧
      s.start? measured = .ok t ∧ s'.start? measured = .ok t' ∧ OnMount mount t t' := by
  have hs := ofChain?_of_pos c hdamping
  have hs' := ofChain?_of_pos (c.mountedOn root mount) hdamping
  have hshaped := (shaped_of_ofChain? hs).1
  have hshaped' := (shaped_of_ofChain? hs').1
  have hmeasured' : measured.length = (c.mountedOn root mount).dof :=
    hmeasured.trans (Chain.dof_mountedOn hfixed).symm
  have hstart := hshaped.start? hmeasured
  have hstart' := hshaped'.start? hmeasured'
  refine ⟨_, _, _, _, hs, hs', hstart, hstart', ?_⟩
  constructor
  case chain => exact ⟨root, rfl⟩
  case rigid => exact hc.isRigid
  case limits => exact congrArg (List.map Segment.limits) (Chain.actuated_mountedOn hfixed)
  case valid =>
    intro l hl
    obtain ⟨segment, hsegment, rfl⟩ := List.mem_map.mp hl
    exact hc.obtained.wellFormed.limits segment hsegment
  case damping => rfl
  case damped => exact hdamping
  case motion => rfl
  case shaped => exact shaped_of_start? hstart hshaped
  case shaped' => exact shaped_of_start? hstart' hshaped'

/-- **Motion does not depend on the mount.** A chain can be mounted on a fixed segment, wherever it is
placed, as long as the frames have different names. The columns of the Jacobian are then turned by the
placement of the mount, and with damping two solvers that start from the same measurement, for the
chain and for the mounted chain, move their joints alike, step by step, if the second one is given the
turned velocities. Limits are real numbers here, so that no range is infinite on one side. -/
theorem motion_does_not_depend_on_mount {c : Chain ℝ} (hc : c.Made) {root : String}
    {mount : Segment ℝ} (hkind : mount.kind = .fixed) (hmount : mount.origin.rotation.IsUnit)
    (hnames : (root :: mount.link :: c.segments.map Segment.link).Nodup) :
    ∃ c', Chain.ofSegments? root (mount :: c.segments) = .ok c' ∧
      (∀ q out, c'.jacobian? q out =
        (c.jacobian? q out).map (List.map mount.origin.rotation.rotate)) ∧
      ∀ damping, 0 < damping → ∀ measured : List (ℝ × ℝ), measured.length = c.dof →
        ∃ s s' t t', ofChain? c damping = .ok s ∧ ofChain? c' damping = .ok s' ∧
          s.start? measured = .ok t ∧ s'.start? measured = .ok t' ∧
          ∀ steps : List (Period × Axes ℝ), (∀ x ∈ steps, x.1.isZero = false) →
            ∃ motions, t.motions? steps = .ok motions ∧
              t'.motions? (steps.map (Prod.map id mount.origin.rotation.rotate)) = .ok motions := by
  have hfixed : ¬ mount.isActuated = true := by
    rw [Segment.isActuated, hkind]
    exact Bool.false_ne_true
  refine ⟨_, hc.ofSegments?_mountedOn hfixed hnames,
    fun q out => Chain.jacobian?_mountedOn hc.isRigid hfixed hmount q rfl, ?_⟩
  intro damping hdamping measured hmeasured
  obtain ⟨s, s', t, t', hs, hs', ht, ht', h⟩ := onMount_of_start hc hfixed hdamping hmeasured
  exact ⟨s, s', t, t', hs, hs', ht, ht', fun steps hsteps => h.motions? hfixed hmount hsteps⟩

/-- A wall above the floor, on its side. -/
noncomputable def wall : Segment ℝ :=
  ⟨"bolts", "floor", .fixed, .unitZ, .ofXyzRpy ⟨0, 0, 1⟩ ⟨1, 0, 0⟩, .free⟩

/-- The slide on a link on a wall: pushed along the wall it moves as it does on the floor. -/
theorem slideOnLink_on_wall : ∃ c c' : Chain ℝ,
    Chain.ofSegments? "floor" Chain.slideOnLink = .ok c ∧
    Chain.ofSegments? "house" (wall :: c.segments) = .ok c' ∧
    ∃ s s' t t' motions, ofChain? c 1 = .ok s ∧ ofChain? c' 1 = .ok s' ∧
      s.start? [(1, 0), (1 / 2, 0)] = .ok t ∧ s'.start? [(1, 0), (1 / 2, 0)] = .ok t' ∧
      t.motions? [(⟨1000000⟩, TaskSpace.push)] = .ok motions ∧
      t'.motions? [(⟨1000000⟩, wall.origin.rotation.rotate TaskSpace.push)] = .ok motions := by
  obtain ⟨c, hc, hdof⟩ := Chain.ofSegments?_slideOnLink
  have hframes := Chain.frames_slideOnLink hc
  have hnames : ("house" :: wall.link :: c.segments.map Segment.link).Nodup := by
    rw [Chain.frames, List.cons.injEq] at hframes
    rw [hframes.2]
    decide
  have hfixed : wall.kind = .fixed := rfl
  obtain ⟨c', hc', -, hmotions⟩ := motion_does_not_depend_on_mount (Chain.made_slideOnLink hc) hfixed
    (Rotation.isUnit_ofRollPitchYaw _) hnames
  obtain ⟨s, s', t, t', hs, hs', ht, ht', hsteps⟩ :=
    hmotions 1 one_pos [(1, 0), (1 / 2, 0)] hdof.symm
  obtain ⟨motions, hm, hm'⟩ := hsteps [(⟨1000000⟩, TaskSpace.push)] (by simp [Period.isZero])
  exact ⟨c, c', hc, hc', s, s', t, t', motions, hs, hs', ht, ht', hm, hm'⟩

end Solver

end ArmServo
