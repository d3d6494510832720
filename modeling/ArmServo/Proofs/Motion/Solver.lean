import ArmServo.Motion.Solver
import ArmServo.Proofs.Chain.Columns

/-!
# What a step of the solver does

A step is refused for want of time or because the buffer of the Jacobian has the wrong width; in both
cases nothing has changed. After that the Jacobian is in its buffer and nothing is refused any more:
the joints are moved, or the program stops at limits that are not in order.
-/

namespace ArmServo.Solver

variable {α : Type} [Scalar α]

theorem eq_of_ofChain? {chain : Chain α} {damping : α} {s : Solver α}
    (h : ofChain? chain damping = .ok s) :
    s = ⟨chain, chain.limits, damping, chain.jacobianBuffer, .zeros chain.dof⟩ := by
  unfold ofChain? at h
  split at h
  · cases h
  · exact (Except.ok.inj h).symm

theorem refreshJacobian_run (s : Solver α) :
    (refreshJacobian (α := α)).run s = match s.chain.jacobian? s.motion.positions s.jacobian with
      | .ok columns => (.ok (), { s with jacobian := columns })
      | .error e => (.error (.refused (.kinematics e)), s) := by
  unfold refreshJacobian
  simp only [run_bind, run_get, Chain.writeJacobian_run]
  cases s.chain.jacobian? s.motion.positions s.jacobian <;> rfl

/-- The joints after a step, from the Jacobian at the old positions. -/
def moved? (s : Solver α) (columns : List (Axes α)) (period : Period) (velocity : Axes α)
    (solve : TaskSpace.Method α) : Option (Motion α) :=
  moveJoints? period.seconds s.limits s.motion.positions
    (columns.map (·.dot (solve columns s.damping velocity)))

theorem moveJoints_run (s : Solver α) (columns : List (Axes α)) (period : Period)
    (velocity : Axes α) (solve : TaskSpace.Method α) :
    (moveJoints period.seconds velocity solve).run { s with jacobian := columns } =
      match s.moved? columns period velocity solve with
      | some motion => (.ok (), { s with jacobian := columns, motion := motion })
      | none => (.error .stopped, { s with jacobian := columns }) := by
  unfold moveJoints moved?
  rw [run_bind, run_get]
  simp only
  cases moveJoints? period.seconds s.limits s.motion.positions
    (columns.map (·.dot (solve columns s.damping velocity))) <;> rfl

/-- **All that a step can do**, with its answer and the solver after it. -/
inductive Steps (s : Solver α) (period : Period) (velocity : Axes α) (solve : TaskSpace.Method α) :
    Except (Failure α) Unit → Solver α → Prop
  | noTime (hp : period.isZero = true) :
    Steps s period velocity solve (.error (.refused (.invalidPeriod period))) s
  | misfit {e : ChainError α} (hp : period.isZero = false)
    (hj : s.chain.jacobian? s.motion.positions s.jacobian = .error e) :
    Steps s period velocity solve (.error (.refused (.kinematics e))) s
  | stuck {columns : List (Axes α)} (hp : period.isZero = false)
    (hj : s.chain.jacobian? s.motion.positions s.jacobian = .ok columns)
    (hm : s.moved? columns period velocity solve = none) :
    Steps s period velocity solve (.error .stopped) { s with jacobian := columns }
  | moved {columns : List (Axes α)} {motion : Motion α} (hp : period.isZero = false)
    (hj : s.chain.jacobian? s.motion.positions s.jacobian = .ok columns)
    (hm : s.moved? columns period velocity solve = some motion) :
    Steps s period velocity solve (.ok ()) { s with jacobian := columns, motion := motion }

theorem step_steps (s : Solver α) (period : Period) (velocity : Axes α)
    (solve : TaskSpace.Method α) :
    Steps s period velocity solve ((step period velocity solve).run s).1
      ((step period velocity solve).run s).2 := by
  unfold step
  simp only [run_ite, run_bind, run_throw, refreshJacobian_run]
  cases hp : period.isZero with
  | true => exact .noTime hp
  | false =>
    cases hj : s.chain.jacobian? s.motion.positions s.jacobian with
    | error e => exact .misfit hp hj
    | ok columns =>
      simp only [Bool.false_eq_true, if_false, moveJoints_run]
      cases hm : s.moved? columns period velocity solve with
      | none => exact .stuck hp hj hm
      | some motion => exact .moved hp hj hm

theorem Steps.run_eq {s t : Solver α} {period : Period} {velocity : Axes α}
    {solve : TaskSpace.Method α} {r : Except (Failure α) Unit}
    (h : s.Steps period velocity solve r t) : (step period velocity solve).run s = (r, t) := by
  unfold step
  cases h with
  | noTime hp => simp only [run_bind, run_throw, hp, if_true]
  | misfit hp hj =>
    simp only [run_bind, hp, Bool.false_eq_true, if_false, refreshJacobian_run, hj]
  | stuck hp hj hm | moved hp hj hm =>
    simp only [run_bind, hp, Bool.false_eq_true, if_false, refreshJacobian_run, hj, moveJoints_run,
      hm]

/-- The solver with other simulated velocities. -/
def withVelocities (s : Solver α) (v : List α) : Solver α :=
  { s with motion := ⟨s.motion.positions, v⟩ }

theorem Steps.withVelocities {s t : Solver α} {period : Period} {velocity : Axes α}
    {solve : TaskSpace.Method α} {r : Except (Failure α) Unit}
    (h : s.Steps period velocity solve r t) (v : List α) :
    ∃ v', (s.withVelocities v).Steps period velocity solve r (t.withVelocities v') ∧
      (r = .ok () → t.withVelocities v' = t) := by
  cases h with
  | noTime hp => exact ⟨v, .noTime hp, nofun⟩
  | misfit hp hj => exact ⟨v, .misfit hp hj, nofun⟩
  | stuck hp hj hm => exact ⟨v, .stuck (s := s.withVelocities v) hp hj hm, nofun⟩
  | moved hp hj hm => exact ⟨_, .moved (s := s.withVelocities v) hp hj hm, fun _ => rfl⟩

/-- Velocities have no influence on a step; one that succeeds replaces them. -/
theorem step_run_withVelocities (s : Solver α) (v : List α) (period : Period) (velocity : Axes α)
    (solve : TaskSpace.Method α) :
    ∃ v', (step period velocity solve).run (s.withVelocities v) =
      (((step period velocity solve).run s).1,
        ((step period velocity solve).run s).2.withVelocities v') ∧
      (((step period velocity solve).run s).1 = .ok () →
        ((step period velocity solve).run s).2.withVelocities v' =
          ((step period velocity solve).run s).2) := by
  obtain ⟨v', h, hok⟩ := (step_steps s period velocity solve).withVelocities v
  exact ⟨v', h.run_eq, hok⟩

theorem Steps.kept {s t : Solver α} {period : Period} {velocity : Axes α}
    {solve : TaskSpace.Method α} {r : Except (Failure α) Unit}
    (h : s.Steps period velocity solve r t) : t.chain = s.chain ∧ t.limits = s.limits := by
  cases h <;> exact ⟨rfl, rfl⟩

theorem Steps.motion_of_error {s t : Solver α} {period : Period} {velocity : Axes α}
    {solve : TaskSpace.Method α} {f : Failure α}
    (h : s.Steps period velocity solve (.error f) t) : t.motion = s.motion := by
  cases h <;> rfl

end ArmServo.Solver
