import Mathlib
import ArmServo.Proofs.Config.Acceptance
import ArmServo.Proofs.Controller.Lifecycle
import ArmServo.Proofs.Controller.Memory

/-!
# When the program stops

A clamp stops the program if its bounds are not in order. Limits of joints come from a configuration,
which is not taken up unless they are valid, and they stay. The bounds of the integrals come from a
configuration, which is not taken up unless they are finite, and from the gains that are put in force
later, of which nothing is asked. So the program only stops at a bound that is not a number and has
been put in force, and there it does stop: at the first period that gets as far as the loops.

Main statement: `stops_exactly_at_undefined_bounds`.
-/

namespace ArmServo

/-! ## one order -/

namespace Core

variable {J : Type} {c d : Core Float J} {o : Order Float} {r : Except (Failure Float) Unit}

/-- Some bound of an integral in force is not a number. -/
def IsUndefined (c : Core Float J) : Prop := ∃ k, (c.pid.gains.get k).iClamp.isNaN = true

/-- A period stops the program exactly if it gets as far as the loops and a bound is not a number. -/
theorem Advances.eq_stopped_iff {error : Axes Float} {period : Period}
    {solve : TaskSpace.Method Float} (h : c.Advances error period solve r d)
    (hl : ∀ l ∈ c.solver.limits, l.isValid = true) :
    r = .error .stopped ↔ period.isZero = false ∧ error.isFinite = true ∧ c.IsUndefined := by
  have hdefined : ∀ {x}, period.isZero = false → c.pid.update? error period = some x →
      ¬ c.IsUndefined := by
    intro x hp hu hundefined
    rw [(Pid.Spatial.update?_eq_none_iff_isNaN hp).mpr hundefined] at hu
    cases hu
  cases h with
  | noTime hp =>
    rw [hp]
    exact ⟨nofun, fun h => (nomatch h.1)⟩
  | badError hp he =>
    rw [he]
    exact ⟨nofun, fun h => (nomatch h.2.1)⟩
  | unbounded hp he hu =>
    exact ⟨fun _ => ⟨hp, he, (Pid.Spatial.update?_eq_none_iff_isNaN hp).mp hu⟩, fun _ => rfl⟩
  | badOutput hp _ hu => exact ⟨nofun, fun h => absurd h.2.2 (hdefined hp hu)⟩
  | notMoved hp _ hu _ hs =>
    exact ⟨fun h => absurd h (hs.ne_stopped hl), fun h => absurd h.2.2 (hdefined hp hu)⟩
  | moved hp _ hu => exact ⟨nofun, fun h => absurd h.2.2 (hdefined hp hu)⟩

/-- The order is a period of a running core, with an error and a period that it does not refuse. -/
def Reaches (c : Core Float J) (o : Order Float) : Prop :=
  c.mode = .running ∧ ∃ error period, (o = .compute error period ∨ o = .tick error period) ∧
    period.isZero = false ∧ error.isFinite = true

theorem running_of_obeyed_eq_stopped {measured : List (Float × Float)}
    {solve : TaskSpace.Method Float} (h : (c.obeyed measured o solve).1 = .error .stopped) :
    o.isPeriod = true ∧ c.mode = .running := by
  cases o with
  | start =>
    unfold obeyed at h
    cases hs : c.solver.start? measured with
    | ok | error =>
      rw [hs] at h
      cases h
  | compute error period | tick error period =>
    unfold obeyed at h
    cases hm : c.mode with
    | paused =>
      rw [hm] at h
      cases h
    | running => exact ⟨rfl, rfl⟩
  | _ => cases h

/-- An order stops the program exactly if it is a period that reaches the loops and a bound is not a
number. -/
theorem obeyed_eq_stopped_iff (hl : ∀ l ∈ c.solver.limits, l.isValid = true)
    (measured : List (Float × Float)) (o : Order Float) (solve : TaskSpace.Method Float) :
    (c.obeyed measured o solve).1 = .error .stopped ↔ c.Reaches o ∧ c.IsUndefined := by
  constructor
  · intro h
    obtain ⟨ho, hm⟩ := running_of_obeyed_eq_stopped h
    obtain ⟨error, period, ho⟩ := Order.isPeriod_iff.mp ho
    rw [obeyed_of_period hm ho] at h
    obtain ⟨hp, he, hundefined⟩ :=
      ((c.advanced_advances error period solve).eq_stopped_iff hl).mp h
    exact ⟨⟨hm, error, period, ho, hp, he⟩, hundefined⟩
  · rintro ⟨⟨hm, error, period, ho, hp, he⟩, hundefined⟩
    rw [obeyed_of_period hm ho]
    exact ((c.advanced_advances error period solve).eq_stopped_iff hl).mpr ⟨hp, he, hundefined⟩

theorem Recalls.gains {pid : Pid.Spatial Float} {input : Axes Float}
    (h : c.Recalls o r pid input) :
    pid.gains = c.pid.gains ∨ ∃ g, o = .setGains g ∧ pid.gains = g := by
  cases h with
  | untouched => exact .inl rfl
  | updated _ hp _ hu _ => exact .inl (Pid.Spatial.gains_of_update? hp hu)
  | reset => exact .inl c.pid.gains_reset
  | jumped => exact .inl c.pid.gains_timeJump
  | regained ho => exact .inr ⟨_, ho, c.pid.gains_setGains _⟩

end Core

/-! ## runs -/

namespace Station

section Answers

variable {H J α : Type} [Scalar α] [JointBus H J α]

/-- An answer of a run is the answer to one of its orders, at the station as it then is. -/
theorem mem_answers {s : Station H J α} {events : List (Event H α)} {solve : TaskSpace.Method α}
    {r : Except (Failure α) Unit} (h : r ∈ s.answers events solve) :
    ∃ before o rest, events = before ++ .order o :: rest ∧
      ((s.after before solve).obey o solve).1 = r := by
  induction events generalizing s with
  | nil => cases h
  | cons e events ih =>
    cases e with
    | change h' =>
      obtain ⟨before, o, rest, rfl, hr⟩ := ih h
      exact ⟨.change h' :: before, o, rest, rfl, hr⟩
    | order o =>
      obtain rfl | h := List.mem_cons.mp h
      · exact ⟨[], o, events, rfl, rfl⟩
      · obtain ⟨before, o', rest, rfl, hr⟩ := ih h
        exact ⟨.order o :: before, o', rest, rfl, hr⟩

end Answers

variable {H J : Type} [JointBus H J Float] {s : Station H J Float} {events : List (Event H Float)}
  {solve : TaskSpace.Method Float} {c : Core Float J}

theorem isValid_limits_of_after (hs : s.controller.core = none)
    (hc : (s.after events solve).controller.core = some c) :
    ∀ l ∈ c.solver.limits, l.isValid = true := by
  obtain ⟨_, _, -, hb⟩ := builtFor_of_after hs events solve hc
  rw [hb.limits]
  exact Config.isValid_of_chain? hb.chain

theorem not_isUndefined_of_buildCore? {kind : CommandKind} {h : H} {config : Config Float}
    (hb : buildCore? kind h config = .ok c) : ¬ c.IsUndefined := by
  rintro ⟨k, hk⟩
  obtain ⟨hvalid, -, chain, handles, solver, -, -, -, rfl⟩ := buildCore?_eq_ok.mp hb
  obtain ⟨-, -, -, -, -, -, hfinite⟩ := Config.validate?_eq_ok_iff.mp hvalid
  rw [Pid.Spatial.gains_ofGains, Pid.Loop.isNaN_iClamp_of_isFinite (hfinite k)] at hk
  cases hk

/-- A bound that is not a number has been put in force in the course of the run. -/
theorem undefined_of_after (hs : s.controller.core = none)
    (hc : (s.after events solve).controller.core = some c) (hundefined : c.IsUndefined) :
    ∃ g, .order (.setGains g) ∈ events ∧ ∃ k, (g.get k).iClamp.isNaN = true := by
  revert hundefined
  refine core_of_after (P := fun c => c.IsUndefined → ∃ g, .order (.setGains g) ∈ events ∧
    ∃ k, (g.get k).iClamp.isNaN = true) hs (fun h config d hb => ?_) events
    (fun d measured o ho hd => ?_) hc
  · exact fun hundefined => absurd hundefined (not_isUndefined_of_buildCore? hb)
  · rintro ⟨k, hk⟩
    obtain hgains | ⟨g, rfl, hgains⟩ := (d.obeyed_recalls measured o solve).gains
    · rw [hgains] at hk
      exact hd ⟨k, hk⟩
    · rw [hgains] at hk
      exact ⟨g, ho, k, hk⟩

theorem obey_eq_stopped_iff (hs : s.controller.core = none) (o : Order Float) :
    ((s.after events solve).obey o solve).1 = .error .stopped ↔
      ∃ c, (s.after events solve).controller.core = some c ∧ c.Reaches o ∧ c.IsUndefined := by
  cases hc : (s.after events solve).controller.core with
  | none =>
    obtain ⟨e, ho⟩ | ⟨config, c, -, -, ho⟩ := obey_cases_of_no_core hc o solve
    · rw [ho]
      exact ⟨nofun, nofun⟩
    · rw [ho]
      exact ⟨nofun, nofun⟩
  | some c =>
    rw [obey_of_core hc, Core.obeyed_eq_stopped_iff (isValid_limits_of_after hs hc)]
    simp only [Option.some.injEq, exists_eq_left']

/-- **The program stops exactly at bounds that are not numbers.** At the end of every run from a
controller that is not initialized, the limits of all joints are in order, so that no joint stops the
program; an order stops it exactly if it is a period of a running controller, the period is not zero,
the error is finite and the bound of some integral is not a number; and no order of the run has stopped
it if all bounds that the run has put in force are numbers. -/
theorem stops_exactly_at_undefined_bounds (writes : CommandKind) (h : H)
    (events : List (Event H Float)) (solve : TaskSpace.Method Float) :
    (∀ c : Core Float J, ((fresh writes h).after events solve).controller.core = some c →
      ∀ l ∈ c.solver.limits, l.lower ≤ l.upper) ∧
    (∀ o : Order Float,
      (((fresh (J := J) writes h).after events solve).obey o solve).1 = .error .stopped ↔
        ∃ c : Core Float J, ((fresh writes h).after events solve).controller.core = some c ∧
          (c.mode = .running ∧ ∃ error period,
            (o = .compute error period ∨ o = .tick error period) ∧ period.isZero = false ∧
              error.isFinite = true) ∧
          ∃ k, (c.pid.gains.get k).iClamp.isNaN = true) ∧
    ((∀ g, .order (.setGains g) ∈ events → ∀ k, (g.get k).iClamp.isNaN = false) →
      .error .stopped ∉ (fresh (J := J) writes h).answers events solve) := by
  have hs : (fresh (J := J) writes h : Station H J Float).controller.core = none := rfl
  refine ⟨fun c hc l hl => Limits.isValid_iff.mp (isValid_limits_of_after hs hc l hl),
    obey_eq_stopped_iff hs, fun hdefined hstopped => ?_⟩
  obtain ⟨before, o, rest, rfl, ho⟩ := mem_answers hstopped
  obtain ⟨c, hc, -, hundefined⟩ := (obey_eq_stopped_iff hs o).mp ho
  obtain ⟨g, hg, k, hk⟩ := undefined_of_after hs hc hundefined
  rw [hdefined g (List.mem_append_left _ hg) k] at hk
  cases hk

/-- The arm runs, and a period is computed after bounds that are infinite have been put in force. -/
def boundlessRun : List (Event (Bench Float) Float) :=
  unboundedSetUp ++ [.order (.compute Sample.error Sample.period)]

/-- Infinite bounds do not stop the arm. -/
theorem infinite_bounds_do_not_stop_the_arm :
    .error .stopped ∉ Sample.station.answers boundlessRun := by
  have hdefined : ∀ g, .order (.setGains g) ∈ boundlessRun → ∀ k, (g.get k).iClamp.isNaN = false := by
    intro g hg k
    simp only [boundlessRun, unboundedSetUp, Sample.setUp, List.mem_append, List.mem_cons,
      List.not_mem_nil, or_false, Event.order.injEq, Order.setGains.injEq, reduceCtorEq,
      false_or] at hg
    rw [hg, Pid.SpatialGains.get_uniform]
    rfl
  exact (stops_exactly_at_undefined_bounds (J := BenchHandle) .position Sample.bench boundlessRun
    TaskSpace.solve).2.2 hdefined

/-- The arm runs, and gains with a bound that is not a number are put in force. -/
def undefinedSetUp : List (Event (Bench Float) Float) :=
  Sample.setUp ++ [.order (.setGains (.uniform ⟨1.0, 1.0, 0.0, 0.0 / 0.0⟩))]

/-- Such gains are taken, and the next tick stops the arm. -/
theorem undefined_bound_stops_the_arm :
    ¬ ∀ events, .error .stopped ∉ Sample.station.answers events := by
  intro h
  exact h (undefinedSetUp ++ [.order (.tick Sample.error Sample.period)]) (by decide +kernel)

end Station

end ArmServo
