import Mathlib
import ArmServo.Controller.Order
import ArmServo.Proofs.Controller.Operations
import ArmServo.Proofs.Motion.Solver

/-!
# What an order does

`Core.obeyed` and `Core.outgoing` say without effects what an order does to an initialized
controller: its answer, the core after it and the commands that go out. `obey_of_core` is the
equation with the operations of a station, `obey_of_no_core` the one for a controller that is not
initialized. `Core.Advances` lists all that a period can do.
-/

namespace ArmServo

variable {H J α : Type} [Scalar α]

/-! ## commands in a row -/

/-- The hardware after a list of commands. -/
def JointBus.setAll [JointBus H J α] (h : H) (commands : List (J × α)) : H :=
  commands.foldl (fun h c => JointBus.setCommand h c.1 c.2) h

omit [Scalar α] in
theorem JointBus.setCommands_eq_setAll [JointBus H J α] (h : H) (js : List J) (xs : List α) :
    JointBus.setCommands h js xs = JointBus.setAll h (js.zip xs) := by
  induction js generalizing h xs with
  | nil => rfl
  | cons j js ih =>
    cases xs with
    | nil => rfl
    | cons x xs => exact ih (JointBus.setCommand h j x) xs

omit [Scalar α] in
theorem Recorded.setAll_eq [JointBus H J α] (r : Recorded H J α) (commands : List (J × α)) :
    JointBus.setAll r commands = ⟨JointBus.setAll r.hardware commands, r.record ++ commands⟩ := by
  induction commands generalizing r with
  | nil => simp [JointBus.setAll]
  | cons c cs ih =>
    rw [JointBus.setAll, List.foldl_cons]
    refine (ih _).trans ?_
    simp [JointBus.setAll, JointBus.setCommand]

/-! ## orders without effects -/

namespace Core

/-- What is measured at the joints of a controller. -/
def measured [JointBus H J α] (c : Core α J) (h : H) : List (α × α) :=
  c.handles.map fun j => (JointBus.position h j, JointBus.velocity h j)

/-- The answer to one period of a running core, and the core after it. -/
def advanced (c : Core α J) (error : Axes α) (period : Period) (solve : TaskSpace.Method α) :
    Except (Failure α) Unit × Core α J :=
  if period.isZero then (.error (.refused (.invalidPeriod period)), c)
  else if !error.isFinite then (.error (.refused (.nonFinite .cartesianError)), c)
  else match c.pid.update? error period with
    | none => (.error .stopped, c)
    | some (input, pid) =>
      if !input.isFinite then (.error (.refused (.nonFinite .pidOutput)), c)
      else match (Solver.step period input solve).run c.solver with
        | (.ok _, solver) => (.ok (), { c with pid := pid, solver := solver, input := input })
        | (.error f, solver) => (.error f, { c with solver := solver })

/-- The answer to an order, and the core after it. -/
def obeyed (c : Core α J) (measured : List (α × α)) (o : Order α)
    (solve : TaskSpace.Method α) : Except (Failure α) Unit × Core α J :=
  match o with
  | .configure _ | .write => (.ok (), c)
  | .start =>
    match c.solver.start? measured with
    | .ok solver => (.ok (), { c with mode := .running, solver := solver })
    | .error e => (.error (.refused e), c)
  | .pause => (.ok (), { c with mode := .paused })
  | .resume => (.ok (), { c with mode := .running })
  | .compute e p | .tick e p =>
    match c.mode with
    | .paused => (.ok (), c)
    | .running => c.advanced e p solve
  | .resetPid => (.ok (), { c with pid := c.pid.reset })
  | .timeJump => (.ok (), { c with pid := c.pid.timeJump })
  | .setGains g => (.ok (), { c with pid := c.pid.setGains g })

/-- The commands of a core, none while it is paused. -/
def commands (c : Core α J) (writes : CommandKind) : List (J × α) :=
  match c.mode with
  | .paused => []
  | .running => c.handles.zip (c.motion.commands writes)

/-- The commands that go out when an order is given. -/
def outgoing (c : Core α J) (writes : CommandKind) (measured : List (α × α)) (o : Order α)
    (solve : TaskSpace.Method α) : List (J × α) :=
  match o, c.obeyed measured o solve with
  | .write, (_, d) => d.commands writes
  | .tick _ _, (.ok _, d) => d.commands writes
  | _, _ => []

/-! ## all that a period can do -/

/-- **All that a period can do** to a running core, with its answer and the core after it. -/
inductive Advances (c : Core α J) (error : Axes α) (period : Period)
    (solve : TaskSpace.Method α) : Except (Failure α) Unit → Core α J → Prop
  | noTime (hp : period.isZero = true) :
    Advances c error period solve (.error (.refused (.invalidPeriod period))) c
  | badError (hp : period.isZero = false) (he : error.isFinite = false) :
    Advances c error period solve (.error (.refused (.nonFinite .cartesianError))) c
  | unbounded (hp : period.isZero = false) (he : error.isFinite = true)
    (hu : c.pid.update? error period = none) :
    Advances c error period solve (.error .stopped) c
  | badOutput {input : Axes α} {pid : Pid.Spatial α} (hp : period.isZero = false)
    (he : error.isFinite = true) (hu : c.pid.update? error period = some (input, pid))
    (hi : input.isFinite = false) :
    Advances c error period solve (.error (.refused (.nonFinite .pidOutput))) c
  | notMoved {input : Axes α} {pid : Pid.Spatial α} {f : Failure α} {solver : Solver α}
    (hp : period.isZero = false) (he : error.isFinite = true)
    (hu : c.pid.update? error period = some (input, pid)) (hi : input.isFinite = true)
    (hs : c.solver.Steps period input solve (.error f) solver) :
    Advances c error period solve (.error f) { c with solver := solver }
  | moved {input : Axes α} {pid : Pid.Spatial α} {solver : Solver α}
    (hp : period.isZero = false) (he : error.isFinite = true)
    (hu : c.pid.update? error period = some (input, pid)) (hi : input.isFinite = true)
    (hs : c.solver.Steps period input solve (.ok ()) solver) :
    Advances c error period solve (.ok ()) { c with pid := pid, solver := solver, input := input }

theorem advanced_advances (c : Core α J) (error : Axes α) (period : Period)
    (solve : TaskSpace.Method α) :
    c.Advances error period solve (c.advanced error period solve).1
      (c.advanced error period solve).2 := by
  unfold advanced
  cases hp : period.isZero with
  | true => exact .noTime hp
  | false =>
    cases he : error.isFinite with
    | false => exact .badError hp he
    | true =>
      simp only [Bool.false_eq_true, if_false, Bool.not_true]
      rcases hu : c.pid.update? error period with _ | ⟨input, pid⟩
      · exact .unbounded hp he hu
      · cases hi : input.isFinite with
        | false =>
          simp only [hi, Bool.not_false, if_true]
          exact .badOutput hp he hu hi
        | true =>
          simp only [hi, Bool.not_true, Bool.false_eq_true, if_false]
          have hs := c.solver.step_steps period input solve
          rcases hr : (Solver.step period input solve).run c.solver with ⟨_ | _, solver⟩
          · rw [hr] at hs
            exact .notMoved hp he hu hi hs
          · rw [hr] at hs
            exact .moved hp he hu hi hs

end Core

/-! ## orders of a station -/

namespace Station

open Operation

section Advance

theorem advance_run {s : Station H J α} {c : Core α J} (hc : s.controller.core = some c)
    (error : Axes α) (period : Period) (solve : TaskSpace.Method α) :
    (advance error period solve).run s =
      ((c.advanced error period solve).1, s.withCore (c.advanced error period solve).2) := by
  unfold advance Core.advanced
  simp only [run_bind, run_ite, core_run_some hc, refuse_run]
  split
  · rw [withCore_self hc]
  split
  · rw [withCore_self hc]
  rcases c.pid.update? error period with _ | ⟨input, pid⟩
  · rw [withCore_self hc]
    rfl
  simp only [run_bind, run_ite, refuse_run, onSolver_run hc]
  split
  · rw [withCore_self hc]
  rcases (Solver.step period input solve).run c.solver with ⟨_ | _, solver⟩
  · rfl
  · exact changeCore_run_some (withCore_core s _) _

theorem compute_run {s : Station H J α} {c : Core α J} (hc : s.controller.core = some c)
    (error : Axes α) (period : Period) (solve : TaskSpace.Method α) (measured : List (α × α)) :
    (compute error period solve).run s =
      ((c.obeyed measured (.compute error period) solve).1,
        s.withCore (c.obeyed measured (.compute error period) solve).2) := by
  unfold compute Core.obeyed
  rw [run_bind, core_run_some hc]
  cases hm : c.mode with
  | paused => simp only [run_pure, hm, withCore_self hc]
  | running => simp only [hm, advance_run hc]

end Advance

variable [JointBus H J α]

omit [Scalar α] in
theorem write_run {s : Station H J α} {c : Core α J} (hc : s.controller.core = some c) :
    (write (H := H)).run s =
      (.ok (), { s with
        hardware := JointBus.setAll s.hardware (c.commands s.controller.writes) }) := by
  unfold write Core.commands
  rw [run_bind, core_run_some hc]
  cases hm : c.mode with
  | paused =>
    simp only [hm]
    rfl
  | running =>
    simp only [hm, run_bind, run_get, ← JointBus.setCommands_eq_setAll]
    rfl

/-- **What an order does at an initialized controller.** -/
theorem obey_of_core {s : Station H J α} {c : Core α J} (hc : s.controller.core = some c)
    (o : Order α) (solve : TaskSpace.Method α) :
    s.obey o solve =
      ((c.obeyed (c.measured s.hardware) o solve).1,
        { s.withCore (c.obeyed (c.measured s.hardware) o solve).2 with
          hardware := JointBus.setAll s.hardware
            (c.outgoing s.controller.writes (c.measured s.hardware) o solve) }) := by
  unfold obey perform
  cases o with
  | configure cfg =>
    show (configure cfg).run s = (.ok (), { s.withCore c with hardware := s.hardware })
    unfold configure
    rw [run_bind, run_get]
    simp only [hc, run_pure, withCore_self hc]
  | start =>
    show start.run s = ((c.obeyed (c.measured s.hardware) .start solve).1,
      { s.withCore (c.obeyed (c.measured s.hardware) .start solve).2 with hardware := s.hardware })
    unfold start Core.obeyed Core.measured
    simp only [run_bind, core_run_some hc, run_get, ofResult_run]
    cases c.solver.start? (c.handles.map fun j =>
        (JointBus.position s.hardware j, JointBus.velocity s.hardware j)) with
    | error e => simp only [Except.mapError, withCore_self hc]
    | ok solver => rfl
  | pause => exact changeCore_run_some hc _
  | resume => exact changeCore_run_some hc _
  | compute e p => exact compute_run hc e p solve _
  | write =>
    refine (write_run hc).trans ?_
    simp only [Core.obeyed, Core.outgoing, withCore_self hc]
  | tick e p =>
    show (tick e p solve).run s = _
    unfold tick
    rw [run_bind, compute_run hc e p solve (c.measured s.hardware)]
    have ho : c.obeyed (c.measured s.hardware) (.compute e p) solve =
        c.obeyed (c.measured s.hardware) (.tick e p) solve := rfl
    rw [ho]
    unfold Core.outgoing
    rcases c.obeyed (c.measured s.hardware) (.tick e p) solve with ⟨_ | _, d⟩
    · rfl
    · exact write_run (withCore_core s d)
  | resetPid => exact changeCore_run_some hc _
  | timeJump => exact changeCore_run_some hc _
  | setGains g => exact changeCore_run_some hc _

/-- **What an order does at a controller that is not initialized**: only a configuration is taken
up, and of that either all or nothing. -/
theorem obey_of_no_core {s : Station H J α} (hc : s.controller.core = none) (o : Order α)
    (solve : TaskSpace.Method α) :
    s.obey o solve = match o with
      | .configure cfg =>
        match buildCore? s.controller.writes s.hardware cfg with
        | .ok c => (.ok (), s.withCore c)
        | .error e => (.error (.refused e), s)
      | _ => (.error (.refused .notInitialized), s) := by
  unfold obey perform
  cases o with
  | configure cfg =>
    show (configure cfg).run s = _
    unfold configure
    rw [run_bind, run_get]
    simp only [hc, run_bind, ofResult_run]
    cases buildCore? s.controller.writes s.hardware cfg <;> rfl
  | start =>
    show start.run s = _
    unfold start
    rw [run_bind, core_run_none hc]
  | pause => exact changeCore_run_none hc _
  | resume => exact changeCore_run_none hc _
  | compute e p =>
    show (compute e p solve).run s = _
    unfold compute
    rw [run_bind, core_run_none hc]
  | write =>
    show write.run s = _
    unfold write
    rw [run_bind, core_run_none hc]
  | tick e p =>
    show (tick e p solve).run s = _
    unfold tick compute
    simp only [run_bind, core_run_none hc]
  | resetPid => exact changeCore_run_none hc _
  | timeJump => exact changeCore_run_none hc _
  | setGains g => exact changeCore_run_none hc _

theorem obey_cases_of_no_core {s : Station H J α} (hc : s.controller.core = none) (o : Order α)
    (solve : TaskSpace.Method α) :
    (∃ e, s.obey o solve = (.error (.refused e), s)) ∨
      ∃ cfg c, o = .configure cfg ∧ buildCore? s.controller.writes s.hardware cfg = .ok c ∧
        s.obey o solve = (.ok (), s.withCore c) := by
  rw [obey_of_no_core hc]
  cases o with
  | configure cfg =>
    dsimp only
    cases hb : buildCore? s.controller.writes s.hardware cfg with
    | ok c => exact .inr ⟨cfg, c, rfl, hb, rfl⟩
    | error e => exact .inl ⟨e, rfl⟩
  | _ => exact .inl ⟨_, rfl⟩

/-! ## what an order sends -/

theorem sent_of_core {s : Station H J α} {c : Core α J} (hc : s.controller.core = some c)
    (o : Order α) (solve : TaskSpace.Method α) :
    s.sent o solve = c.outgoing s.controller.writes (c.measured s.hardware) o solve := by
  let recorded : Station (Recorded H J α) J α := ⟨s.controller, .start s.hardware⟩
  have hr : recorded.controller.core = some c := hc
  show (recorded.obey o solve).2.hardware.record = _
  rw [obey_of_core hr]
  simp only [Recorded.setAll_eq]
  exact List.nil_append _

theorem sent_of_no_core {s : Station H J α} (hc : s.controller.core = none) (o : Order α)
    (solve : TaskSpace.Method α) : s.sent o solve = [] := by
  let recorded : Station (Recorded H J α) J α := ⟨s.controller, .start s.hardware⟩
  have hr : recorded.controller.core = none := hc
  show (recorded.obey o solve).2.hardware.record = _
  obtain ⟨e, h⟩ | ⟨cfg, c, -, -, h⟩ := obey_cases_of_no_core hr o solve <;> rw [h] <;> rfl

/-- The hardware changes by the commands that are sent, and by nothing else. -/
theorem hardware_obey (s : Station H J α) (o : Order α) (solve : TaskSpace.Method α) :
    (s.obey o solve).2.hardware = JointBus.setAll s.hardware (s.sent o solve) := by
  cases hc : s.controller.core with
  | some c => rw [obey_of_core hc, sent_of_core hc]
  | none =>
    rw [sent_of_no_core hc]
    obtain ⟨e, h⟩ | ⟨cfg, c, -, -, h⟩ := obey_cases_of_no_core hc o solve
    · rw [h]; rfl
    · rw [h]; rfl

theorem writes_obey (s : Station H J α) (o : Order α) (solve : TaskSpace.Method α) :
    (s.obey o solve).2.controller.writes = s.controller.writes := by
  cases hc : s.controller.core with
  | some c => rw [obey_of_core hc]; rfl
  | none =>
    obtain ⟨e, h⟩ | ⟨cfg, c, -, -, h⟩ := obey_cases_of_no_core hc o solve
    · rw [h]
    · rw [h]; rfl

end Station

end ArmServo
