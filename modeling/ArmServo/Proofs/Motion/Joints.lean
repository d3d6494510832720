import Mathlib
import ArmServo.Proofs.Chain.Columns
import ArmServo.Proofs.Chain.Limits
import ArmServo.Proofs.Motion.Solver
import ArmServo.Proofs.Scalar.Time

/-!
# A step, joint by joint

A step pairs limits, positions and columns until one of the lists ends. In a solver that is in shape
all of them have one entry per moving joint, so that no joint is left out; the solver is then never
refused a Jacobian, and it stays in shape whatever it does.

Whatever joint velocities are found, a step that succeeds ends within the limits. Over the real
numbers the velocity that a joint reports takes it exactly to its new position, also where its limits
have stopped it.

Main statements: `exists_moveJoints?`, `Shaped.moves`, `Steps.shaped`, `Steps.within`,
`exact_of_moveJoint?`.
-/

namespace ArmServo

variable {α : Type}

/-- What a command of the kind carries, of a position and a velocity. -/
def CommandKind.pick (kind : CommandKind) (position velocity : α) : α :=
  match kind with
  | .position => position
  | .velocity => velocity

theorem Motion.commands_cons (x v : α) (m : Motion α) (kind : CommandKind) :
    Motion.commands ⟨x :: m.positions, v :: m.velocities⟩ kind =
      kind.pick x v :: m.commands kind := by
  cases kind <;> rfl

theorem Limits.isSome_clamp? [Scalar α] (l : Limits α) (x : α) :
    (l.clamp? x).isSome = l.isValid := by
  cases l with
  | free => rfl
  | range lower upper =>
    by_cases h : lower ≤ upper <;> simp [clamp?, clampBetween?, isValid, h]

namespace Solver

variable [Scalar α]

theorem moveJoint?_eq_some {l : Limits α} {dt q u x v : α} :
    moveJoint? l dt q u = some (x, v) ↔ l.clamp? (q + u * dt) = some x ∧
      v = if x == q + u * dt then u else (x - q) / dt := by
  unfold moveJoint?
  dsimp only
  cases l.clamp? (q + u * dt) with
  | none => simp
  | some clamped =>
    simp only [Option.some.injEq, Prod.mk.injEq]
    constructor <;> rintro ⟨rfl, rfl⟩ <;> exact ⟨rfl, rfl⟩

theorem exists_moveJoints? {ls : List (Limits α)} (hl : ∀ l ∈ ls, l.isValid = true) (dt : α)
    (qs us : List α) : ∃ m, moveJoints? dt ls qs us = some m := by
  fun_induction moveJoints? dt ls qs us with
  | case1 => exact ⟨_, rfl⟩
  | case2 l ls q qs u us hnone ih =>
    rw [List.forall_mem_cons] at hl
    obtain ⟨m, hm⟩ := ih hl.2
    obtain ⟨x, hx⟩ := Option.isSome_iff_exists.mp ((l.isSome_clamp? (q + u * dt)).trans hl.1)
    exact (hnone x _ m (moveJoint?_eq_some.mpr ⟨hx, rfl⟩) hm).elim
  | case3 => exact ⟨_, rfl⟩

/-- All joints are moved for `dt` seconds, each as `moveJoint?` says: from limits, old positions and
joint velocities to a motion. -/
inductive Moves (dt : α) : List (Limits α) → List α → List α → Motion α → Prop
  | nil : Moves dt [] [] [] ⟨[], []⟩
  | cons {l : Limits α} {q u x v : α} {ls : List (Limits α)} {qs us : List α} {m : Motion α}
    (hjoint : moveJoint? l dt q u = some (x, v)) (hrest : Moves dt ls qs us m) :
    Moves dt (l :: ls) (q :: qs) (u :: us) ⟨x :: m.positions, v :: m.velocities⟩

theorem moves_of_moveJoints? {dt : α} {ls : List (Limits α)} {qs us : List α} {m : Motion α}
    (h : moveJoints? dt ls qs us = some m) (hq : qs.length = ls.length)
    (hu : us.length = ls.length) : Moves dt ls qs us m := by
  induction ls generalizing qs us m with
  | nil =>
    cases List.length_eq_zero_iff.mp hq
    cases List.length_eq_zero_iff.mp hu
    cases h
    exact .nil
  | cons l ls ih =>
    obtain ⟨q, qs, rfl⟩ := List.exists_cons_of_length_eq_add_one hq
    obtain ⟨u, us, rfl⟩ := List.exists_cons_of_length_eq_add_one hu
    unfold moveJoints? at h
    cases hj : moveJoint? l dt q u with
    | none =>
      rw [hj] at h
      cases h
    | some moved =>
      cases hr : moveJoints? dt ls qs us with
      | none =>
        rw [hj, hr] at h
        cases h
      | some rest =>
        rw [hj, hr] at h
        cases h
        exact .cons hj (ih hr (Nat.succ.inj hq) (Nat.succ.inj hu))

theorem Moves.length_positions {dt : α} {ls : List (Limits α)} {qs us : List α} {m : Motion α}
    (h : Moves dt ls qs us m) : m.positions.length = ls.length := by
  induction h with
  | nil => rfl
  | cons _ _ ih => exact congrArg Nat.succ ih

theorem Moves.length_velocities {dt : α} {ls : List (Limits α)} {qs us : List α} {m : Motion α}
    (h : Moves dt ls qs us m) : m.velocities.length = ls.length := by
  induction h with
  | nil => rfl
  | cons _ _ ih => exact congrArg Nat.succ ih

/-! ## the shape of a solver -/

/-- Limits, motion and Jacobian have one entry per moving joint of the chain. -/
structure Shaped (s : Solver α) : Prop where
  limits : s.limits.length = s.chain.dof
  positions : s.motion.positions.length = s.chain.dof
  velocities : s.motion.velocities.length = s.chain.dof
  jacobian : s.jacobian.length = s.chain.dof

theorem shaped_of_ofChain? {chain : Chain α} {damping : α} {s : Solver α}
    (h : ofChain? chain damping = .ok s) : s.Shaped ∧ s.chain = chain := by
  obtain rfl := eq_of_ofChain? h
  exact ⟨⟨List.length_map _, List.length_replicate, List.length_replicate,
    List.length_replicate⟩, rfl⟩

/-- A Jacobian always finds its positions and its buffer wide enough. -/
theorem Shaped.jacobian? {s : Solver α} (hs : s.Shaped) :
    ∃ columns, s.chain.jacobian? s.motion.positions s.jacobian = .ok columns :=
  ⟨_, Chain.jacobian?_eq_ok.mpr ⟨hs.positions, hs.jacobian, rfl⟩⟩

/-- **No joint is left out** when all joints are moved. -/
theorem Shaped.moves {s : Solver α} (hs : s.Shaped) {columns : List (Axes α)} {period : Period}
    {velocity : Axes α} {solve : TaskSpace.Method α} {m : Motion α}
    (hj : s.chain.jacobian? s.motion.positions s.jacobian = .ok columns)
    (hm : s.moved? columns period velocity solve = some m) :
    Moves period.seconds s.limits s.motion.positions
      (columns.map (·.dot (solve columns s.damping velocity))) m := by
  refine moves_of_moveJoints? hm (hs.positions.trans hs.limits.symm) ?_
  rw [List.length_map, Chain.length_of_jacobian? hj, hs.limits]

/-- **A step keeps the shape**, also one that fails. -/
theorem Steps.shaped {s t : Solver α} {period : Period} {velocity : Axes α}
    {solve : TaskSpace.Method α} {r : Except (Failure α) Unit}
    (h : s.Steps period velocity solve r t) (hs : s.Shaped) : t.Shaped := by
  cases h with
  | noTime | misfit => exact hs
  | stuck _ hj _ => exact { hs with jacobian := Chain.length_of_jacobian? hj }
  | moved _ hj hm =>
    have hmoves := hs.moves hj hm
    exact ⟨hs.limits, hmoves.length_positions.trans hs.limits,
      hmoves.length_velocities.trans hs.limits, Chain.length_of_jacobian? hj⟩

theorem Steps.noTime_of_refused {s t : Solver α} {period : Period} {velocity : Axes α}
    {solve : TaskSpace.Method α} {e : ControlError α}
    (h : s.Steps period velocity solve (.error (.refused e)) t) (hs : s.Shaped) :
    e = .invalidPeriod period := by
  cases h with
  | noTime => rfl
  | misfit _ hj =>
    obtain ⟨columns, hok⟩ := hs.jacobian?
    rw [hok] at hj
    cases hj

theorem Steps.ne_stopped {s t : Solver α} {period : Period} {velocity : Axes α}
    {solve : TaskSpace.Method α} {r : Except (Failure α) Unit}
    (h : s.Steps period velocity solve r t) (hl : ∀ l ∈ s.limits, l.isValid = true) :
    r ≠ .error .stopped := by
  cases h with
  | noTime | misfit | moved => exact fun h => nomatch h
  | stuck _ _ hm =>
    obtain ⟨m, hmoved⟩ := exists_moveJoints? hl period.seconds s.motion.positions _
    rw [moved?, hmoved] at hm
    cases hm

omit [Scalar α] in
theorem Shaped.start? {s : Solver α} (hs : s.Shaped) {measured : List (α × α)}
    (hm : measured.length = s.chain.dof) :
    s.start? measured =
      .ok { s with motion := ⟨measured.map Prod.fst, measured.map Prod.snd⟩ } :=
  if_pos (hm.trans hs.positions.symm)

omit [Scalar α] in
theorem shaped_of_start? {s t : Solver α} {measured : List (α × α)}
    (h : s.start? measured = .ok t) (hs : s.Shaped) : t.Shaped := by
  unfold Solver.start? at h
  split at h
  · rename_i hm
    cases h
    exact ⟨hs.limits, (List.length_map _).trans (hm.trans hs.positions),
      (List.length_map _).trans (hm.trans hs.positions), hs.jacobian⟩
  · cases h

/-! ## limits -/

/-- Every position lies within the limits of its joint, or is not a number. -/
def Within (s : Solver Float) : Prop := List.Forall₂ Limits.Admits s.limits s.motion.positions

theorem Moves.admits {dt : Float} {ls : List (Limits Float)} {qs us : List Float}
    {m : Motion Float} (h : Moves dt ls qs us m) : List.Forall₂ Limits.Admits ls m.positions := by
  induction h with
  | nil => exact .nil
  | cons hjoint _ ih => exact .cons (Limits.admits_of_clamp? (moveJoint?_eq_some.mp hjoint).1) ih

/-- **A step that succeeds ends within the limits**, wherever it starts and whatever is solved. -/
theorem Steps.within {s t : Solver Float} {period : Period} {velocity : Axes Float}
    {solve : TaskSpace.Method Float} (h : s.Steps period velocity solve (.ok ()) t)
    (hl : s.limits = s.chain.limits) : t.Within := by
  cases h with
  | moved _ hj hm =>
    have hdof : s.limits.length = s.chain.dof := by
      rw [hl]
      exact List.length_map _
    have hq := (Chain.jacobian?_eq_ok.mp hj).1
    have hu := Chain.length_of_jacobian? hj
    refine (moves_of_moveJoints? hm (hq.trans hdof.symm) ?_).admits
    rw [List.length_map, hu, hdof]

/-! ## exact motion -/

/-- **The reported velocity leads exactly to the new position.** -/
theorem exact_of_moveJoint? {l : Limits ℝ} {dt q u x v : ℝ} (hdt : dt ≠ 0)
    (h : moveJoint? l dt q u = some (x, v)) : x = q + v * dt := by
  obtain ⟨-, rfl⟩ := moveJoint?_eq_some.mp h
  simp only [Scalar.beq_real, decide_eq_true_eq]
  by_cases he : x = q + u * dt
  · rw [if_pos he]
    exact he
  · rw [if_neg he, div_mul_cancel₀ _ hdt]
    ring

end Solver

end ArmServo
