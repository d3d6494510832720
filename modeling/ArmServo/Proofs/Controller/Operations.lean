import ArmServo.Controller.Station
import ArmServo.Proofs.Effects

/-!
# The steps of an operation

What the single steps of an operation of a station do: they take the core, put another one in its
place, refuse, or do something with the solver.
-/

namespace ArmServo

namespace Station

variable {H J α β : Type}

/-- The station with another core. -/
def withCore (s : Station H J α) (c : Core α J) : Station H J α :=
  { s with controller := { s.controller with core := some c } }

@[simp] theorem withCore_core (s : Station H J α) (c : Core α J) :
    (s.withCore c).controller.core = some c := rfl

theorem withCore_self {s : Station H J α} {c : Core α J} (h : s.controller.core = some c) :
    s.withCore c = s := by
  obtain ⟨⟨writes, core⟩, hardware⟩ := s
  cases h
  rfl

theorem running_core {s : Station H J α} (h : s.controller.state = .running) :
    ∃ c, s.controller.core = some c ∧ c.mode = .running := by
  unfold Controller.state at h
  cases hc : s.controller.core with
  | none =>
    rw [hc] at h
    cases h
  | some c =>
    rw [hc] at h
    cases hm : c.mode with
    | running => exact ⟨c, rfl, hm⟩
    | paused =>
      simp only [hm] at h
      cases h

open Operation

theorem refuse_run (e : ControlError α) (s : Station H J α) :
    (refuse e : Operation H J α β).run s = (.error (.refused e), s) := rfl

theorem ofResult_run (r : Except (ControlError α) β) (s : Station H J α) :
    (ofResult r).run s = (r.mapError .refused, s) := by
  cases r <;> rfl

theorem core_run_none {s : Station H J α} (h : s.controller.core = none) :
    Operation.core.run s = (.error (.refused .notInitialized), s) := by
  unfold Operation.core
  rw [run_bind, run_get]
  simp only [h]
  rfl

theorem core_run_some {s : Station H J α} {c : Core α J} (h : s.controller.core = some c) :
    Operation.core.run s = (.ok c, s) := by
  unfold Operation.core
  rw [run_bind, run_get]
  simp only [h]
  rfl

theorem setCore_run (s : Station H J α) (c : Core α J) :
    (setCore c).run s = (.ok (), s.withCore c) := rfl

theorem changeCore_run_none {s : Station H J α} (h : s.controller.core = none)
    (f : Core α J → Core α J) : (changeCore f).run s = (.error (.refused .notInitialized), s) := by
  unfold changeCore
  rw [run_bind, core_run_none h]

theorem changeCore_run_some {s : Station H J α} {c : Core α J} (h : s.controller.core = some c)
    (f : Core α J → Core α J) : (changeCore f).run s = (.ok (), s.withCore (f c)) := by
  unfold changeCore
  rw [run_bind, core_run_some h]
  rfl

theorem onSolver_run {s : Station H J α} {c : Core α J} (h : s.controller.core = some c)
    (a : Solver.Action α β) :
    (onSolver a).run s =
      ((a.run c.solver).1, s.withCore { c with solver := (a.run c.solver).2 }) := by
  unfold onSolver
  rw [run_bind, core_run_some h]
  simp only [run_bind, setCore_run]
  rcases a.run c.solver with ⟨_ | _, t⟩ <;> rfl

end Station

end ArmServo
