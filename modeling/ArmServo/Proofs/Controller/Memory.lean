import Mathlib
import ArmServo.Proofs.Controller.Runs
import ArmServo.Proofs.Pid.Memory
import ArmServo.Proofs.Sample

/-!
# The memory of a controller

A controller remembers its last output, and the integrals and last errors of its loops. New ones are
taken over when a period has succeeded, which takes a finite error and a finite output; so all of it
stays finite, whatever gains are put in force. A period that has succeeded leaves every integral
within its bound, and there it stays until the bounds change.

Main statement: `memory_is_finite_and_bounded`.
-/

namespace ArmServo

/-! ## one order -/

namespace Core

section Recall

variable {J α : Type} [Scalar α]

/-- **All that an order can do to the memory** of a core, with the answer to it: the loops and the last
output after it. -/
inductive Recalls (c : Core α J) (o : Order α) :
    Except (Failure α) Unit → Pid.Spatial α → Axes α → Prop
  | untouched {r : Except (Failure α) Unit}
    (hr : o.isPeriod = true → c.mode = .running → r ≠ .ok ()) : Recalls c o r c.pid c.input
  | updated {error input : Axes α} {period : Period} {pid : Pid.Spatial α}
    (ho : o.isPeriod = true) (hp : period.isZero = false) (he : error.isFinite = true)
    (hu : c.pid.update? error period = some (input, pid)) (hi : input.isFinite = true) :
    Recalls c o (.ok ()) pid input
  | reset (ho : o = .resetPid) : Recalls c o (.ok ()) c.pid.reset c.input
  | jumped (ho : o = .timeJump) : Recalls c o (.ok ()) c.pid.timeJump c.input
  | regained {g : Pid.SpatialGains α} (ho : o = .setGains g) :
    Recalls c o (.ok ()) (c.pid.setGains g) c.input

theorem Advances.recalls {c d : Core α J} {error : Axes α} {period : Period}
    {solve : TaskSpace.Method α} {r : Except (Failure α) Unit}
    (h : c.Advances error period solve r d) {o : Order α} (ho : o.isPeriod = true) :
    c.Recalls o r d.pid d.input := by
  cases h with
  | noTime | badError | unbounded | badOutput | notMoved => exact .untouched fun _ _ h => nomatch h
  | moved hp he hu hi _ => exact .updated ho hp he hu hi

theorem obeyed_recalls (c : Core α J) (measured : List (α × α)) (o : Order α)
    (solve : TaskSpace.Method α) :
    c.Recalls o (c.obeyed measured o solve).1 (c.obeyed measured o solve).2.pid
      (c.obeyed measured o solve).2.input := by
  cases o with
  | start =>
    unfold obeyed
    cases c.solver.start? measured <;> exact .untouched fun h => nomatch h
  | compute error period | tick error period =>
    unfold obeyed
    cases hm : c.mode with
    | paused =>
      refine .untouched fun _ hr => ?_
      rw [hm] at hr
      cases hr
    | running => exact (c.advanced_advances error period solve).recalls rfl
  | resetPid => exact .reset rfl
  | timeJump => exact .jumped rfl
  | setGains g => exact .regained rfl
  | _ => exact .untouched fun h => nomatch h

end Recall

variable {J : Type} {c : Core Float J} {o : Order Float} {r : Except (Failure Float) Unit}
  {pid : Pid.Spatial Float} {input : Axes Float}

theorem Recalls.isFinite (h : c.Recalls o r pid input)
    (hc : c.pid.IsFinite ∧ c.input.isFinite = true) : pid.IsFinite ∧ input.isFinite = true := by
  cases h with
  | untouched => exact hc
  | updated _ hp he hu hi => exact ⟨Pid.Spatial.isFinite_of_update? hp he hu hi, hi⟩
  | reset => exact ⟨c.pid.isFinite_reset, hc.2⟩
  | jumped => exact ⟨hc.1.timeJump, hc.2⟩
  | regained => exact ⟨hc.1.setGains _, hc.2⟩

theorem Recalls.isBounded_of_period (h : c.Recalls o (.ok ()) pid input) (ho : o.isPeriod = true)
    (hm : c.mode = .running) : pid.IsBounded := by
  cases h with
  | untouched hr => exact absurd rfl (hr ho hm)
  | updated _ hp he hu hi =>
    exact Pid.Spatial.isBounded_of_update? hp hu (Pid.Spatial.isFinite_of_update? hp he hu hi)
  | reset h => cases h; cases ho
  | jumped h => cases h; cases ho
  | regained h => cases h; cases ho

/-- Integrals stay within their bounds until the bounds change. -/
theorem Recalls.isBounded (h : c.Recalls o r pid input) (ho : ∀ g, o ≠ .setGains g)
    (hc : c.pid.IsBounded) : pid.IsBounded := by
  cases h with
  | untouched => exact hc
  | updated _ hp he hu hi =>
    exact Pid.Spatial.isBounded_of_update? hp hu (Pid.Spatial.isFinite_of_update? hp he hu hi)
  | reset => exact hc.reset
  | jumped => exact hc.timeJump
  | regained h => exact absurd h (ho _)

end Core

/-! ## runs -/

namespace Station

variable {H J : Type} [JointBus H J Float]

theorem isFinite_memory {s : Station H J Float} (hs : s.controller.core = none)
    (events : List (Event H Float)) {solve : TaskSpace.Method Float} {c : Core Float J}
    (hc : (s.after events solve).controller.core = some c) :
    c.pid.IsFinite ∧ c.input.isFinite = true := by
  refine core_of_after (P := fun c => c.pid.IsFinite ∧ c.input.isFinite = true) hs
    (fun h config d hb => ?_) events (fun d measured o _ hd => ?_) hc
  · obtain ⟨-, -, chain, handles, solver, -, -, -, rfl⟩ := buildCore?_eq_ok.mp hb
    exact ⟨Pid.Spatial.isFinite_ofGains _, Axes.isFinite_zero⟩
  · exact (d.obeyed_recalls measured o solve).isFinite hd

theorem isBounded_memory {s : Station H J Float} {events : List (Event H Float)}
    {solve : TaskSpace.Method Float} {o : Order Float} (ho : o.isPeriod = true)
    (hrun : (s.after events solve).controller.state = .running)
    (hr : ((s.after events solve).obey o solve).1 = .ok ()) {later : List (Event H Float)}
    (hlater : ∀ g, .order (.setGains g) ∉ later) {c : Core Float J}
    (hc : (s.after (events ++ .order o :: later) solve).controller.core = some c) :
    c.pid.IsBounded := by
  obtain ⟨b, hb, hm⟩ := running_core hrun
  rw [obey_of_core hb] at hr
  have hrecalls := b.obeyed_recalls (b.measured (s.after events solve).hardware) o solve
  rw [hr] at hrecalls
  obtain ⟨d, hd, hbounded⟩ := core_after_append_of (P := fun c => c.pid.IsBounded)
    (core_after_concat hb o) (hrecalls.isBounded_of_period ho hm) later
    fun c measured o ho hc => (c.obeyed_recalls measured o solve).isBounded
      (fun g hg => hlater g (hg ▸ ho)) hc
  rw [List.append_assoc, List.singleton_append, hc] at hd
  cases hd
  exact hbounded

/-- **The memory of a controller is finite and bounded.** At the end of every run from a controller that
is not initialized, with whatever errors, periods and gains: if the controller has a core, its last
output and the integral and the last error of every axis are finite. And after a period that has
succeeded while the controller ran, and until gains are put in force, no integral exceeds the bound of
its axis in absolute value. -/
theorem memory_is_finite_and_bounded (writes : CommandKind) (h : H) (events : List (Event H Float))
    (solve : TaskSpace.Method Float) :
    (∀ c : Core Float J, ((fresh writes h).after events solve).controller.core = some c →
      (∀ k, (c.input.get k).isFinite = true) ∧
      ∀ k, (c.pid.loop k).integral.isFinite = true ∧
        (c.pid.loop k).lastError.isFinite = true) ∧
    ∀ o : Order Float, o.isPeriod = true →
      ((fresh (J := J) writes h).after events solve).controller.state = .running →
      (((fresh (J := J) writes h).after events solve).obey o solve).1 = .ok () →
      ∀ later : List (Event H Float), (∀ g, .order (.setGains g) ∉ later) →
      ∀ c : Core Float J,
        ((fresh writes h).after (events ++ .order o :: later) solve).controller.core = some c →
        ∀ k, (c.pid.loop k).integral.abs ≤ (c.pid.loop k).gains.iClamp.abs := by
  refine ⟨fun c hc => ?_, fun o ho hrun hr later hlater c hc => ?_⟩
  · obtain ⟨hpid, hinput⟩ := isFinite_memory rfl events hc
    exact ⟨Axes.isFinite_iff.mp hinput, fun k => ⟨(hpid k).integral, (hpid k).lastError⟩⟩
  · exact isBounded_memory ho hrun hr hlater hc

/-- The arm runs with gains that do not bound the integrals. -/
def unboundedSetUp : List (Event (Bench Float) Float) :=
  Sample.setUp ++ [.order (.setGains (.uniform ⟨1.0, 2.0, 0.0, Binary64.infinity⟩))]

/-- A gap in time, and a tick with an infinite error. -/
def gapAndNonsense : List (Event (Bench Float) Float) :=
  [.order .timeJump, .order (.tick (.uniform Binary64.infinity) Sample.period)]

/-- The arm keeps finite integrals within infinite bounds. -/
theorem unbounded_integrals_stay_finite :
    ∃ c, (Sample.station.after (unboundedSetUp ++
        .order (.tick Sample.error Sample.period) :: gapAndNonsense)).controller.core = some c ∧
      (∀ k, (c.input.get k).isFinite = true) ∧
      (∀ k, (c.pid.loop k).integral.isFinite = true ∧
        (c.pid.loop k).lastError.isFinite = true) ∧
      ∀ k, (c.pid.loop k).integral.abs ≤ (c.pid.loop k).gains.iClamp.abs := by
  have hrun : (Sample.station.after unboundedSetUp).controller.state = .running := by
    decide +kernel
  have hr : ((Sample.station.after unboundedSetUp).obey (.tick Sample.error Sample.period)).1 =
      .ok () := by decide +kernel
  have hlater : ∀ g, Event.order (.setGains g) ∉ gapAndNonsense := by simp [gapAndNonsense]
  obtain ⟨b, hb, -⟩ := running_core hrun
  obtain ⟨c, hc, -⟩ :=
    core_after_append hb (.order (.tick Sample.error Sample.period) :: gapAndNonsense)
  rw [Sample.station] at hc ⊢
  have hfinite := (memory_is_finite_and_bounded (J := BenchHandle) .position Sample.bench
    (unboundedSetUp ++ .order (.tick Sample.error Sample.period) :: gapAndNonsense)
    TaskSpace.solve).1 c hc
  have hbounded := (memory_is_finite_and_bounded (J := BenchHandle) .position Sample.bench
    unboundedSetUp TaskSpace.solve).2 (.tick Sample.error Sample.period) rfl hrun hr gapAndNonsense
    hlater c hc
  exact ⟨c, hc, hfinite.1, hfinite.2, hbounded⟩

end Station

end ArmServo
