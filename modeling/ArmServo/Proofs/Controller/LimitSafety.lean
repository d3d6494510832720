import ArmServo.Proofs.Controller.Runs
import ArmServo.Proofs.Motion.Joints
import ArmServo.Proofs.Related
import ArmServo.Proofs.Sample

/-!
# Joints stay within their limits

A controller may be started with joints outside their limits. Once a computation has succeeded while
it ran, and until it is started again, every simulated position lies within the limits of its joint
or is not a number, whatever else happens; and so does every position that is sent, for the joint
whose handle receives it. Nothing is assumed of the way in which joint velocities are found.

Main statement: `settled_runs_keep_limits`.
-/

namespace ArmServo

variable {H J : Type}

/-! ## one order -/

namespace Core

theorem Solves.within_of_ok {c : Core Float J} {measured : List (Float × Float)} {o : Order Float}
    {solve : TaskSpace.Method Float} {t : Solver Float} (h : c.Solves measured o solve (.ok ()) t)
    (hl : c.solver.limits = c.chain.limits) (ho : o.isPeriod = true) (hm : c.mode = .running) :
    t.Within := by
  cases h with
  | untouched hr => exact absurd rfl (hr ho hm)
  | started hstart =>
    rw [hstart] at ho
    cases ho
  | stepped _ hs => exact hs.within hl

/-- Positions within the limits stay there unless the controller is started. -/
theorem Solves.within {c : Core Float J} {measured : List (Float × Float)} {o : Order Float}
    {solve : TaskSpace.Method Float} {r : Except (Failure Float) Unit} {t : Solver Float}
    (h : c.Solves measured o solve r t) (hl : c.solver.limits = c.chain.limits)
    (hw : c.solver.Within) (ho : o = .start → r ≠ .ok ()) : t.Within := by
  cases h with
  | untouched => exact hw
  | started hstart => exact absurd rfl (ho hstart)
  | stepped _ hs =>
    cases hs with
    | noTime | misfit | stuck => exact hw
    | moved hp hj hm => exact Solver.Steps.within (.moved hp hj hm) hl

/-- Commands go out for all joints or for none. -/
theorem outgoing_eq (c : Core Float J) (writes : CommandKind) (measured : List (Float × Float))
    (o : Order Float) (solve : TaskSpace.Method Float) :
    c.outgoing writes measured o solve = [] ∨
      c.outgoing writes measured o solve =
        (c.obeyed measured o solve).2.handles.zip
          ((c.obeyed measured o solve).2.motion.commands writes) := by
  have hcommands : ∀ d : Core Float J, d.commands writes = [] ∨
      d.commands writes = d.handles.zip (d.motion.commands writes) := by
    intro d
    unfold commands
    cases d.mode with
    | paused => exact .inl rfl
    | running => exact .inr rfl
  unfold outgoing
  obtain ⟨r, d⟩ := c.obeyed measured o solve
  cases o with
  | write => exact hcommands d
  | tick error period =>
    cases r with
    | ok => exact hcommands d
    | error => exact .inl rfl
  | _ => exact .inl rfl

end Core

/-! ## runs -/

namespace Station

variable [JointBus H J Float]

/-- A run in which a computation has succeeded while the controller ran, and in which the controller
has not been started since. -/
inductive Settled (s : Station H J Float) (solve : TaskSpace.Method Float) :
    List (Event H Float) → Prop
  | moved {events : List (Event H Float)} {o : Order Float} (ho : o.isPeriod = true)
    (hm : (s.after events solve).controller.state = .running)
    (hr : ((s.after events solve).obey o solve).1 = .ok ()) :
    Settled s solve (events ++ [.order o])
  | kept {events : List (Event H Float)} {e : Event H Float} (h : Settled s solve events)
    (he : e = .order .start → ((s.after events solve).obey .start solve).1 ≠ .ok ()) :
    Settled s solve (events ++ [e])

/-- **A settled run ends within the limits.** The induction is on the run; that the limits are those
of the chain is known of every core along it. -/
theorem Settled.within {s : Station H J Float} {solve : TaskSpace.Method Float}
    {events : List (Event H Float)} (h : Settled s solve events) (hs : s.controller.core = none) :
    ∃ c, (s.after events solve).controller.core = some c ∧ c.solver.Within := by
  induction h with
  | @moved events o ho hm hr =>
    obtain ⟨c, hc, hmode⟩ := running_core hm
    obtain ⟨_, _, _, hb⟩ := builtFor_of_after hs events solve hc
    rw [obey_of_core hc] at hr
    change (c.obeyed (c.measured (s.after events solve).hardware) o solve).1 = .ok () at hr
    have hsolves := c.obeyed_solves (c.measured (s.after events solve).hardware) o solve
    rw [hr] at hsolves
    exact ⟨_, core_after_concat hc o, hsolves.within_of_ok hb.limits ho hmode⟩
  | @kept events e _ he ih =>
    obtain ⟨c, hc, hw⟩ := ih
    cases e with
    | change h => exact ⟨c, by rw [after_concat]; exact hc, hw⟩
    | order o =>
      obtain ⟨_, _, _, hb⟩ := builtFor_of_after hs events solve hc
      refine ⟨_, core_after_concat hc o, ?_⟩
      refine (c.obeyed_solves (c.measured (s.after events solve).hardware) o solve).within
        hb.limits hw ?_
      rintro rfl
      have hr := he rfl
      rwa [obey_of_core hc] at hr

/-! ## what is sent -/

/-- The positions of a core within its limits go to the handles of the joints, each within the limits
of its joint. -/
theorem admits_of_within {c : Core Float J} {config : Config Float} {h : H}
    (hb : c.BuiltFor config h) (hw : c.solver.Within) :
    List.Forall₂ (fun (segment : Segment Float) command =>
        JointBus.handle? h segment.joint = some command.1 ∧ segment.limits.Admits command.2)
      c.chain.actuated (c.handles.zip c.positions) := by
  obtain ⟨_, -, -, hjoints⟩ := Config.chain?_eq_ok hb.chain
  have hhandles := hb.handles
  rw [← hjoints] at hhandles
  unfold Solver.Within at hw
  rw [hb.limits] at hw
  exact forall₂_zip (List.forall₂_map_left_iff.mp hhandles) (List.forall₂_map_left_iff.mp hw)

/-- **Joints stay within their limits.** At the end of a settled run of a station that was not
initialized before, every simulated position lies within the limits of its joint, or is not a number;
and the positions that the last order of the run has sent, if any, have gone to the handles that the
joints of the chain had when the controller was initialized, each within the limits of its joint. -/
theorem settled_runs_keep_limits (solve : TaskSpace.Method Float) (writes : CommandKind) (h : H)
    {events : List (Event H Float)} (hs : Settled (fresh writes h) solve events) :
    ∃ (c : Core Float J) (config : Config Float) (h₀ : H),
      ((fresh writes h : Station H J Float).after events solve).controller.core = some c ∧
      (fresh writes h).TookUp events solve config h₀ ∧ config.chain? = .ok c.chain ∧
      (∀ l ∈ c.chain.limits, l.lower ≤ l.upper) ∧
      List.Forall₂ (fun l q => q.isNaN = false → l.lower ≤ q ∧ q ≤ l.upper)
        c.chain.limits c.positions ∧
      (writes = .position → ∀ before o, events = before ++ [.order o] →
        ((fresh writes h).after before solve).sent o solve = [] ∨
        List.Forall₂ (fun (segment : Segment Float) command =>
          JointBus.handle? h₀ segment.joint = some command.1 ∧ (command.2.isNaN = false →
            segment.limits.lower ≤ command.2 ∧ command.2 ≤ segment.limits.upper))
          c.chain.actuated (((fresh writes h).after before solve).sent o solve)) := by
  have h0 : (fresh writes h : Station H J Float).controller.core = none := rfl
  obtain ⟨c, hc, hw⟩ := hs.within h0
  obtain ⟨config, h₀, ht, hb⟩ := builtFor_of_after h0 events solve hc
  refine ⟨c, config, h₀, hc, ht, hb.chain, ?_, ?_, ?_⟩
  · intro l hl
    exact Limits.isValid_iff.mp (Config.isValid_of_chain? hb.chain l hl)
  · have hpositions := hw
    unfold Solver.Within at hpositions
    rw [hb.limits] at hpositions
    exact hpositions
  · rintro rfl before o rfl
    cases hd : ((fresh .position h : Station H J Float).after before solve).controller.core with
    | none => exact .inl (sent_of_no_core hd o solve)
    | some d =>
      rw [core_after_concat hd] at hc
      cases hc
      rw [sent_of_core hd, writes_after]
      obtain ho | ho := d.outgoing_eq .position
        (d.measured ((fresh .position h).after before solve).hardware) o solve
      · exact .inl ho
      · refine .inr ?_
        change List.Forall₂ _ _ (d.outgoing .position _ o solve)
        rw [ho]
        exact admits_of_within hb hw

/-- The arm is started with its lift above its range, and a period brings it back. -/
theorem started_outside_limits :
    (Sample.station.after Sample.setUp).controller.motion? = some ⟨[0.75, 0.0], [0.0, 0.0]⟩ ∧
      ∃ c : Core Float BenchHandle,
        (Sample.station.after (Sample.setUp ++ [.order (.tick Sample.error Sample.period)])
          TaskSpace.solve).controller.core = some c ∧
        List.Forall₂ (fun l q => q.isNaN = false → l.lower ≤ q ∧ q ≤ l.upper)
          c.chain.limits c.positions := by
  have hs : Settled Sample.station TaskSpace.solve
      (Sample.setUp ++ [.order (.tick Sample.error Sample.period)]) :=
    .moved rfl (by decide +kernel) (by decide +kernel)
  obtain ⟨c, -, -, hc, -, -, -, hq, -⟩ :=
    settled_runs_keep_limits TaskSpace.solve .position Sample.bench hs
  refine ⟨by decide +kernel, c, ?_, hq⟩
  rw [Sample.station]
  exact hc

end Station

end ArmServo
