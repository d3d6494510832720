import ArmServo.Proofs.Controller.Servo
import ArmServo.Proofs.Motion.Rest

/-!
# A robot that is told to stand still

Without an error, and with loops that remember nothing, a controller that has been started within its
limits keeps every joint where it was measured. One period at rest ends at rest, and so does any
number of periods of any lengths, also with a joint at an end of its limits and wherever the joints
are found meanwhile. This is so in every arithmetic in which zero stays zero.

Main statement: `zero_error_is_equilibrium`.
-/

namespace ArmServo

variable {H J α : Type} [Scalar α]

/-! ## one period -/

namespace Core

/-- A running core at given positions, all within the limits, whose loops remember nothing. -/
structure AtRest (c : Core α J) (positions : List α) : Prop where
  running : c.mode = .running
  shaped : c.Shaped
  forgetful : c.pid.reset = c.pid
  anchored : c.positions = positions
  within : List.Forall₂ (fun l q => l.contains q = true) c.solver.limits positions

variable [ZeroLaws α] [TellsTime α]

/-- **One period at rest** succeeds without any input to the joints and ends at rest. -/
theorem AtRest.of_advances {c d : Core α J} {positions : List α} (hc : c.AtRest positions)
    {period : Period} (hp : period.isZero = false) {r : Except (Failure α) Unit}
    (h : c.Advances .zero period TaskSpace.solve r d) :
    r = .ok () ∧ d.AtRest positions ∧ d.handles = c.handles ∧ d.input = .zero ∧
      d.motion = ⟨positions, List.replicate positions.length 0⟩ := by
  have hzero : (Axes.zero : Axes α).isFinite = true :=
    Axes.isFinite_iff.mpr fun k => by
      rw [Axes.get_zero, ZeroLaws.isFinite_zero]
  have hpid := Pid.Spatial.update?_zero hc.forgetful hp
  have hwithin : List.Forall₂ (fun l q => l.contains q = true) c.solver.limits
      c.solver.motion.positions := by
    rw [show c.solver.motion.positions = positions from hc.anchored]
    exact hc.within
  cases h with
  | noTime hp' =>
    rw [hp] at hp'
    cases hp'
  | badError _ he =>
    rw [hzero] at he
    cases he
  | unbounded _ _ hu =>
    rw [hpid] at hu
    cases hu
  | badOutput _ _ hu hi =>
    rw [hpid] at hu
    cases hu
    rw [hzero] at hi
    cases hi
  | notMoved _ _ hu _ hs =>
    rw [hpid] at hu
    cases hu
    cases (hs.at_rest hc.shaped.solver hp hwithin).1
  | moved _ _ hu _ hs =>
    rw [hpid] at hu
    cases hu
    have hmotion := (hs.at_rest hc.shaped.solver hp hwithin).2
    rw [show c.solver.motion.positions = positions from hc.anchored] at hmotion
    obtain ⟨hchain, hlimits⟩ := hs.kept
    refine ⟨rfl, ⟨hc.running, ⟨?_, hs.shaped hc.shaped.solver⟩, hc.forgetful, ?_, ?_⟩, rfl, rfl,
      hmotion⟩
    · rw [hc.shaped.handles]
      exact congrArg Chain.dof hchain.symm
    · exact congrArg Motion.positions hmotion
    · rw [hlimits]
      exact hc.within

theorem AtRest.obeyed_tick {c : Core α J} {positions : List α} (hc : c.AtRest positions)
    {period : Period} (hp : period.isZero = false) (measured : List (α × α)) :
    (c.obeyed measured (.tick .zero period) TaskSpace.solve).1 = .ok () ∧
      (c.obeyed measured (.tick .zero period) TaskSpace.solve).2.AtRest positions ∧
      (c.obeyed measured (.tick .zero period) TaskSpace.solve).2.handles = c.handles ∧
      (c.obeyed measured (.tick .zero period) TaskSpace.solve).2.input = .zero ∧
      (c.obeyed measured (.tick .zero period) TaskSpace.solve).2.motion =
        ⟨positions, List.replicate positions.length 0⟩ := by
  rw [obeyed_of_period hc.running (.inr rfl)]
  exact hc.of_advances hp (c.advanced_advances _ _ _)

omit [ZeroLaws α] [TellsTime α] in
theorem Shaped.atRest_started {c : Core α J} (hc : c.Shaped) (hpid : c.pid.reset = c.pid)
    {measured : List (α × α)} (hm : measured.length = c.handles.length)
    (hwithin : List.Forall₂ (fun l q => l.contains q = true) c.solver.limits
      (measured.map Prod.fst)) : (c.started measured).AtRest (measured.map Prod.fst) := by
  refine ⟨rfl, ?_, hpid, rfl, hwithin⟩
  have hshaped := hc.obeyed measured .start TaskSpace.solve
  rwa [hc.obeyed_start hm] at hshaped

end Core

/-! ## any number of periods -/

/-- An event that does not ask a robot to move: a tick without an error, of whatever time, or a
change of the hardware. -/
def Event.IsStill : Event H α → Prop
  | .order (.tick error period) => error = .zero ∧ period.isZero = false
  | .order _ => False
  | .change _ => True

namespace Station

variable [JointBus H J α] [ZeroLaws α] [TellsTime α]

theorem atRest_after {s : Station H J α} {events : List (Event H α)} {c : Core α J}
    (hc : (s.after events).controller.core = some c) {positions : List α}
    (hrest : c.AtRest positions) {later : List (Event H α)} (hlater : ∀ e ∈ later, e.IsStill) :
    ∃ d, (s.after (events ++ later)).controller.core = some d ∧ d.AtRest positions ∧
      d.handles = c.handles := by
  refine core_after_append_of hc ⟨hrest, rfl⟩ later fun d measured o ho hd => ?_
  have hstill := hlater _ ho
  cases o with
  | tick error period =>
    obtain ⟨rfl, hp⟩ := hstill
    obtain ⟨-, hd', hhandles, -, -⟩ := hd.1.obeyed_tick hp measured
    exact ⟨hd', hhandles.trans hd.2⟩
  | _ => cases hstill

/-- What a tick without an error does at rest: it succeeds, there is no Cartesian input, the
simulated motion is rest at the positions, and that is what the joints are told. -/
structure StandsStill (s : Station H J α) (handles : List J) (positions : List α)
    (period : Period) : Prop where
  answer : (s.obey (.tick .zero period)).1 = .ok ()
  input : (s.obey (.tick .zero period)).2.controller.input? = some .zero
  motion : (s.obey (.tick .zero period)).2.controller.motion? =
    some ⟨positions, List.replicate positions.length 0⟩
  sent : s.sent (.tick .zero period) = handles.zip
    (match s.controller.writes with
      | .position => positions
      | .velocity => List.replicate positions.length 0)

theorem standsStill {s : Station H J α} {c : Core α J} (hc : s.controller.core = some c)
    {positions : List α} (hrest : c.AtRest positions) {period : Period}
    (hp : period.isZero = false) : s.StandsStill c.handles positions period := by
  obtain ⟨hok, hd, hhandles, hinput, hmotion⟩ := hrest.obeyed_tick hp (c.measured s.hardware)
  have hsent := sent_of_core hc (.tick .zero period) TaskSpace.solve
  refine ⟨?_, ?_, ?_, hsent.trans ?_⟩
  · rw [obey_of_core hc, hok]
  · rw [obey_of_core hc]
    exact congrArg some hinput
  · rw [obey_of_core hc]
    exact congrArg some hmotion
  · unfold Core.outgoing
    generalize c.obeyed (c.measured s.hardware) (.tick .zero period) TaskSpace.solve = o at *
    obtain ⟨r, d⟩ := o
    cases hok
    show d.commands s.controller.writes = _
    unfold Core.commands
    rw [hd.running]
    dsimp only
    rw [hhandles, hmotion]
    cases s.controller.writes <;> rfl

/-! ## the main statement -/

/-- **Zero error is an equilibrium.** A controller that has taken up a configuration, whose loops
remember nothing and whose joints are measured within their limits, is started. However many ticks
without an error follow, each of some time, and wherever the joints are found meanwhile: the
simulated positions are those that were measured at the start, and the next tick succeeds, has no
Cartesian input, leaves all joints there at no velocity, and tells the joints exactly that. -/
theorem zero_error_is_equilibrium {s : Station H J α} (hs : s.controller.core = none)
    (events : List (Event H α)) {c : Core α J} (hc : (s.after events).controller.core = some c)
    (hpid : c.pid.reset = c.pid) {positions : List α}
    (hmeasured : (c.measured (s.after events).hardware).map Prod.fst = positions)
    (hwithin : List.Forall₂ (fun l q => l.contains q = true) c.chain.limits positions) :
    ((s.after events).obey .start).1 = .ok () ∧
    ∀ later : List (Event H α), (∀ e ∈ later, e.IsStill) →
      (s.after (events ++ .order .start :: later)).controller.motion?.map Motion.positions =
        some positions ∧
      ∀ period : Period, period.isZero = false →
        (s.after (events ++ .order .start :: later)).StandsStill c.handles positions period := by
  have hshaped := shaped_of_after hs events hc
  have hstart := obey_start hc hshaped TaskSpace.solve
  obtain ⟨_, _, -, hbuilt⟩ := builtFor_of_after hs events TaskSpace.solve hc
  rw [← hbuilt.limits] at hwithin
  subst hmeasured
  have hrest := hshaped.atRest_started hpid (c.length_measured _) hwithin
  refine ⟨by rw [hstart], fun later hlater => ?_⟩
  have hanchored : (s.after (events ++ [.order .start])).controller.core =
      some (c.started (c.measured (s.after events).hardware)) := by
    rw [after_concat]
    show ((s.after events).obey .start).2.controller.core = _
    rw [hstart]
    rfl
  obtain ⟨d, hd, hdrest, hhandles⟩ := atRest_after hanchored hrest hlater
  rw [List.append_assoc, List.singleton_append] at hd
  refine ⟨?_, fun period hp => ?_⟩
  · rw [Controller.motion?, hd]
    exact congrArg some hdrest.anchored
  · have hstill := standsStill hd hdrest hp
    rwa [hhandles] at hstill

/-- The lift at the upper end of its range. -/
noncomputable def raisedLift : Bench ℝ := ⟨[⟨"lift", 1, 0, none, 0⟩]⟩

theorem limits_of_chain?_lift {writes : CommandKind} {chain : Chain ℝ}
    (h : ({ lift with commandKind := some writes } : Config ℝ).chain? = .ok chain) :
    chain.limits = [.range 0 1] := by
  obtain ⟨full, hfull, hchain, hjoints⟩ := Config.chain?_eq_ok h
  have hlimits : ∀ t ∈ chain.actuated, t.limits = .range 0 1 := by
    intro t ht
    have hmem := Chain.mem_of_between? hchain t (List.mem_of_mem_filter ht)
    obtain ⟨s, hs, haccepted⟩ := Chain.mem_of_ofSegments? hfull hmem
    cases List.mem_singleton.mp hs
    rw [Chain.eq_of_accepted haccepted]
    rfl
  have hone : chain.actuated.length = 1 := by
    rw [← List.length_map, show chain.actuated.map Segment.joint = ["lift"] from hjoints]
    rfl
  obtain ⟨t, ht⟩ := List.length_eq_one_iff.mp hone
  rw [Chain.limits, ht, List.map_singleton, hlimits t (by rw [ht]; exact List.mem_singleton_self t)]

/-- What is built for the raised lift: one handle, one range, and loops that remember nothing. -/
theorem buildCore?_raisedLift :
    ∃ c, buildCore? .velocity raisedLift { lift with commandKind := some .velocity } = .ok c ∧
      c.handles = [⟨"lift", 0⟩] ∧ c.chain.limits = [.range 0 1] ∧ c.pid.reset = c.pid := by
  obtain ⟨c, hb⟩ := buildCore?_lift .velocity
  have hbuilt : buildCore? .velocity raisedLift { lift with commandKind := some .velocity } = .ok c :=
    buildCore?_of_names (b := liftBench) rfl .velocity hb
  refine ⟨c, hbuilt, ?_⟩
  obtain ⟨-, -, chain, handles, solver, hchain, hhandles, hsolver, rfl⟩ :=
    buildCore?_eq_ok.mp hbuilt
  obtain rfl := Solver.eq_of_ofChain? hsolver
  cases hhandles with
  | cons hj hrest =>
    cases hrest
    cases hj
    exact ⟨rfl, limits_of_chain?_lift hchain, Pid.Spatial.reset_ofGains _⟩

/-- Told by velocities to stand still, the lift stays at the end of its range and is sent nothing but
zeros. -/
theorem raisedLift_stands_still :
    ((fresh .velocity raisedLift : Station (Bench ℝ) BenchHandle ℝ).after
      [.order (.configure { lift with commandKind := some .velocity }), .order .start,
        .order (.tick .zero ⟨1000000⟩)]).StandsStill [⟨"lift", 0⟩] [1] ⟨1000000⟩ := by
  obtain ⟨c, hbuilt, hhandles, hlimits, hpid⟩ := buildCore?_raisedLift
  have hconfigured : (fresh .velocity raisedLift : Station (Bench ℝ) BenchHandle ℝ).after
      [.order (.configure { lift with commandKind := some .velocity })] =
        (fresh .velocity raisedLift).withCore c := by
    show ((fresh .velocity raisedLift).obey (.configure _)).2 = _
    rw [obey_configure_of_no_core rfl hbuilt]
  have hcore := congrArg (·.controller.core) hconfigured
  have hmeasured : (c.measured ((fresh .velocity raisedLift : Station (Bench ℝ) BenchHandle ℝ).after
      [.order (.configure { lift with commandKind := some .velocity })]).hardware).map Prod.fst =
        [1] := by
    rw [hconfigured, Core.measured, hhandles]
    rfl
  have hwithin : List.Forall₂ (fun l q => l.contains q = true) c.chain.limits [1] := by
    rw [hlimits]
    exact .cons (by simp [Limits.contains]) .nil
  obtain ⟨-, hrest⟩ := zero_error_is_equilibrium rfl _ hcore hpid hmeasured hwithin
  obtain ⟨-, hstill⟩ := hrest [.order (.tick .zero ⟨1000000⟩)] (by simp [Event.IsStill, Period.isZero])
  rw [hhandles] at hstill
  exact hstill ⟨1000000⟩ rfl

end Station

end ArmServo
