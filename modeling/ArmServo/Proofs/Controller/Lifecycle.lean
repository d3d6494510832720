import ArmServo.Proofs.Controller.Runs
import ArmServo.Proofs.Hardware.Bench
import ArmServo.Proofs.Motion.Joints
import ArmServo.Proofs.Sample

/-!
# From the first configuration on

A controller is uninitialized until a configuration is taken up. From then on its chain and its
handles stay, and handles, motion, limits and Jacobian have one entry per moving joint of the chain.
So a start and a tick always find what fits together, and a tick of a running controller sends one
command to every joint. At a bench that keeps its joints every controlled joint counts one command
more, and nothing else changes.

Main statement: `lifecycle_and_shape`.
-/

namespace ArmServo

variable {H J α : Type} [Scalar α]

/-! ## the shape of a core -/

namespace Core

/-- Handles and solver have one entry per moving joint of the chain. -/
structure Shaped (c : Core α J) : Prop where
  handles : c.handles.length = c.chain.dof
  solver : c.solver.Shaped

theorem Solves.shaped {c : Core α J} {measured : List (α × α)} {o : Order α}
    {solve : TaskSpace.Method α} {r : Except (Failure α) Unit} {t : Solver α}
    (h : c.Solves measured o solve r t) (hs : c.solver.Shaped) : t.Shaped := by
  cases h with
  | untouched => exact hs
  | started _ hstart => exact Solver.shaped_of_start? hstart hs
  | stepped _ hstep => exact hstep.shaped hs

theorem Shaped.obeyed {c : Core α J} (hc : c.Shaped) (measured : List (α × α)) (o : Order α)
    (solve : TaskSpace.Method α) : (c.obeyed measured o solve).2.Shaped := by
  refine ⟨?_, (c.obeyed_solves measured o solve).shaped hc.solver⟩
  rw [obeyed_handles, chain_obeyed, hc.handles]

omit [Scalar α] in
theorem Shaped.length_commands {c : Core α J} (hc : c.Shaped) (kind : CommandKind) :
    (c.motion.commands kind).length = c.handles.length := by
  rw [hc.handles]
  cases kind with
  | position => exact hc.solver.positions
  | velocity => exact hc.solver.velocities

/-- The core after a start from measured values. -/
def started (c : Core α J) (measured : List (α × α)) : Core α J :=
  { c with
    mode := .running
    solver := { c.solver with motion := ⟨measured.map Prod.fst, measured.map Prod.snd⟩ } }

omit [Scalar α] in
theorem length_measured [JointBus H J α] (c : Core α J) (h : H) :
    (c.measured h).length = c.handles.length :=
  List.length_map _

theorem Shaped.obeyed_start {c : Core α J} (hc : c.Shaped) {measured : List (α × α)}
    (hm : measured.length = c.handles.length) (solve : TaskSpace.Method α) :
    c.obeyed measured .start solve = (.ok (), c.started measured) := by
  unfold Core.obeyed
  rw [hc.solver.start? (hm.trans hc.handles)]
  rfl

theorem Shaped.obeyed_ne_kinematics {c : Core α J} (hc : c.Shaped) (measured : List (α × α))
    {o : Order α} (ho : o.isPeriod = true) (solve : TaskSpace.Method α) (e : ChainError α) :
    (c.obeyed measured o solve).1 ≠ .error (.refused (.kinematics e)) := by
  have hadvanced : ∀ error period,
      (c.advanced error period solve).1 ≠ .error (.refused (.kinematics e)) := by
    intro error period hr
    have ha := c.advanced_advances error period solve
    rw [hr] at ha
    generalize (c.advanced error period solve).2 = d at ha
    cases ha with
    | notMoved _ _ _ _ hs => cases hs.noTime_of_refused hc.solver
  unfold Core.obeyed
  cases o with
  | compute error period | tick error period =>
    cases c.mode with
    | paused => exact fun h => nomatch h
    | running => exact hadvanced error period
  | _ => cases ho

theorem Advances.mode {c d : Core α J} {error : Axes α} {period : Period}
    {solve : TaskSpace.Method α} {r : Except (Failure α) Unit}
    (h : c.Advances error period solve r d) : d.mode = c.mode := by
  cases h <;> rfl

/-- A running core that succeeds with a tick sends its new motion, component by component, to its
handles. -/
theorem Shaped.outgoing_tick {c : Core α J} (hc : c.Shaped) (hm : c.mode = .running)
    {measured : List (α × α)} {error : Axes α} {period : Period} {solve : TaskSpace.Method α}
    (hr : (c.obeyed measured (.tick error period) solve).1 = .ok ()) (writes : CommandKind) :
    (c.outgoing writes measured (.tick error period) solve).map Prod.fst = c.handles ∧
      (c.outgoing writes measured (.tick error period) solve).map Prod.snd =
        (c.obeyed measured (.tick error period) solve).2.motion.commands writes := by
  have hd := hc.obeyed measured (.tick error period) solve
  have hhandles := c.obeyed_handles measured (.tick error period) solve
  have hmode : (c.obeyed measured (.tick error period) solve).2.mode = .running := by
    rw [Core.obeyed_of_period hm (.inr rfl)]
    exact (c.advanced_advances error period solve).mode.trans hm
  unfold Core.outgoing
  generalize c.obeyed measured (.tick error period) solve = obeyed at *
  obtain ⟨r, d⟩ := obeyed
  cases hr
  have hlength := hd.length_commands writes
  show (d.commands writes).map Prod.fst = c.handles ∧ (d.commands writes).map Prod.snd = _
  unfold Core.commands
  rw [hmode, ← hhandles]
  exact ⟨List.map_fst_zip hlength.ge, List.map_snd_zip hlength.le⟩

end Core

namespace Station

section Runs

variable [JointBus H J α]

theorem shaped_of_buildCore? {writes : CommandKind} {h : H} {config : Config α} {c : Core α J}
    (hb : buildCore? writes h config = .ok c) : c.Shaped := by
  obtain ⟨-, -, chain, handles, solver, hchain, hhandles, hsolver, rfl⟩ := buildCore?_eq_ok.mp hb
  obtain ⟨hshaped, rfl⟩ := Solver.shaped_of_ofChain? hsolver
  obtain ⟨-, -, -, hjoints⟩ := Config.chain?_eq_ok hchain
  refine ⟨?_, hshaped⟩
  show handles.length = solver.chain.actuated.length
  rw [← hhandles.length_eq, ← hjoints, Chain.jointNames, List.length_map]

theorem shaped_of_after {s : Station H J α} (hs : s.controller.core = none)
    (events : List (Event H α)) {solve : TaskSpace.Method α} {c : Core α J}
    (hc : (s.after events solve).controller.core = some c) : c.Shaped :=
  core_of_after hs (fun _ _ _ => shaped_of_buildCore?) events
    (fun _ measured o _ hd => hd.obeyed measured o solve) hc

omit [Scalar α] [JointBus H J α] in
theorem state_eq_uninitialized_iff (s : Station H J α) :
    s.controller.state = .uninitialized ↔ s.controller.core = none := by
  unfold Controller.state
  rcases s.controller.core with _ | c
  · exact ⟨fun _ => rfl, fun _ => rfl⟩
  · dsimp only
    cases c.mode <;> exact ⟨fun h => (nomatch h), fun h => (nomatch h)⟩

/-- A configuration has been taken up, or was there already, in the course of a run. -/
def Configured (s : Station H J α) (events : List (Event H α)) (solve : TaskSpace.Method α) : Prop :=
  ∃ before config rest, events = before ++ .order (.configure config) :: rest ∧
    ((s.after before solve).obey (.configure config) solve).1 = .ok ()

/-- **A controller is uninitialized until it has been configured.** -/
theorem state_after_iff {s : Station H J α} (hs : s.controller.core = none)
    (events : List (Event H α)) (solve : TaskSpace.Method α) :
    (s.after events solve).controller.state = .uninitialized ↔ ¬ s.Configured events solve := by
  rw [state_eq_uninitialized_iff]
  constructor
  · rintro hnone ⟨before, config, rest, rfl, hr⟩
    have hcore : ∃ c, (s.after (before ++ [.order (.configure config)]) solve).controller.core =
        some c := by
      cases hd : (s.after before solve).controller.core with
      | some d => exact ⟨_, core_after_concat hd _⟩
      | none =>
        rw [after_concat]
        show ∃ c, ((s.after before solve).obey (.configure config) solve).2.controller.core = some c
        obtain ⟨e, ho⟩ | ⟨_, c, -, -, ho⟩ := obey_cases_of_no_core hd (.configure config) solve
        · rw [ho] at hr
          cases hr
        · exact ⟨c, by rw [ho]; rfl⟩
    obtain ⟨c, hc⟩ := hcore
    obtain ⟨d, hd, -, -⟩ := core_after_append hc rest
    rw [List.append_assoc, List.singleton_append, hnone] at hd
    cases hd
  · intro hnever
    cases hc : (s.after events solve).controller.core with
    | none => rfl
    | some c =>
      obtain ⟨config, h, ⟨before, rest, hevents, -, -, hr⟩, -⟩ := builtFor_of_after hs events solve hc
      exact absurd ⟨before, config, rest, hevents, hr⟩ hnever

/-- What is known of the core that a controller has at the end of a run. -/
structure Established (s : Station H J α) (events : List (Event H α)) (solve : TaskSpace.Method α)
    (c : Core α J) : Prop where
  /-- Everything has one entry per moving joint. -/
  shaped : c.Shaped
  /-- Chain and handles are those of a configuration, with the hardware as it was then. -/
  resolved : ∃ config h, s.TookUp events solve config h ∧ config.chain? = .ok c.chain ∧
    List.Forall₂ (fun segment j => JointBus.handle? h segment.joint = some j) c.chain.actuated
      c.handles
  /-- Different joints have different handles if a handle knows its joint. -/
  distinct : (∀ (h : H) (joint : String) (j : J), JointBus.handle? h joint = some j →
    JointBus.name H j = joint) → c.handles.Nodup
  /-- Chain and handles stay, whatever happens. -/
  lasting : ∀ later, ∃ d, (s.after (events ++ later) solve).controller.core = some d ∧
    d.chain = c.chain ∧ d.handles = c.handles
  /-- Another configuration is answered and changes nothing, at whatever hardware. -/
  kept : ∀ (config : Config α) (h : H),
    ({ s.after events solve with hardware := h } : Station H J α).obey (.configure config) solve =
      (.ok (), { s.after events solve with hardware := h }) ∧
    ({ s.after events solve with hardware := h } : Station H J α).sent (.configure config) solve = []

theorem established {s : Station H J α} (hs : s.controller.core = none)
    (events : List (Event H α)) {solve : TaskSpace.Method α} {c : Core α J}
    (hc : (s.after events solve).controller.core = some c) : s.Established events solve c := by
  obtain ⟨config, h, htook, hb⟩ := builtFor_of_after hs events solve hc
  obtain ⟨-, -, -, hjoints⟩ := Config.chain?_eq_ok hb.chain
  refine ⟨shaped_of_after hs events hc, ⟨config, h, htook, hb.chain, ?_⟩, fun hname => ?_,
    core_after_append hc, fun config' h' => ?_⟩
  · have hhandles := hb.handles
    rw [← hjoints] at hhandles
    exact List.forall₂_map_left_iff.mp hhandles
  · have hnames : config.joints = c.handles.map (JointBus.name H) := by
      refine List.forall₂_eq_eq_eq.le _ _ (List.forall₂_map_right_iff.mpr ?_)
      exact hb.handles.imp fun joint j hj => (hname h joint j hj).symm
    have hnodup := Config.nodup_jointNames_of_chain? hb.chain
    rw [hjoints, hnames] at hnodup
    exact hnodup.of_map
  · have hc' : ({ s.after events solve with hardware := h' } : Station H J α).controller.core =
        some c := hc
    rw [obey_of_core hc', sent_of_core hc']
    refine ⟨?_, rfl⟩
    show (Except.ok (), ({ s.after events solve with hardware := h' } : Station H J α).withCore c) =
      _
    rw [withCore_self hc']

theorem obey_start {s : Station H J α} {c : Core α J} (hc : s.controller.core = some c)
    (hshaped : c.Shaped) (solve : TaskSpace.Method α) :
    s.obey .start solve = (.ok (), s.withCore (c.started (c.measured s.hardware))) := by
  rw [obey_of_core hc, hshaped.obeyed_start (c.length_measured s.hardware)]
  rfl

theorem notInitialized_of_start {s : Station H J α} (hs : s.controller.core = none)
    (events : List (Event H α)) {solve : TaskSpace.Method α} {f : Failure α}
    (hr : ((s.after events solve).obey .start solve).1 = .error f) :
    f = .refused .notInitialized := by
  cases hc : (s.after events solve).controller.core with
  | none =>
    rw [obey_of_no_core hc] at hr
    cases hr
    rfl
  | some c =>
    rw [obey_start hc (shaped_of_after hs events hc)] at hr
    cases hr

theorem tick_ne_kinematics {s : Station H J α} (hs : s.controller.core = none)
    (events : List (Event H α)) (solve : TaskSpace.Method α) (error : Axes α) (period : Period)
    (e : ChainError α) :
    ((s.after events solve).obey (.tick error period) solve).1 ≠
      .error (.refused (.kinematics e)) := by
  cases hc : (s.after events solve).controller.core with
  | none =>
    rw [obey_of_no_core hc]
    exact fun h => nomatch h
  | some c =>
    rw [obey_of_core hc]
    exact (shaped_of_after hs events hc).obeyed_ne_kinematics _ rfl solve e

/-- A tick that succeeds while the controller runs sends the new motion to the handles, one command
to each. -/
theorem sent_tick {s : Station H J α} (hs : s.controller.core = none) (events : List (Event H α))
    {solve : TaskSpace.Method α} {error : Axes α} {period : Period}
    (hrun : (s.after events solve).controller.state = .running)
    (hr : ((s.after events solve).obey (.tick error period) solve).1 = .ok ()) :
    ((s.after events solve).sent (.tick error period) solve).map Prod.fst =
        (s.after events solve).controller.handles ∧
      ∃ m, ((s.after events solve).obey (.tick error period) solve).2.controller.motion? = some m ∧
        ((s.after events solve).sent (.tick error period) solve).map Prod.snd =
          m.commands s.controller.writes := by
  obtain ⟨c, hc, hm⟩ := running_core hrun
  rw [obey_of_core hc] at hr
  obtain ⟨hfst, hsnd⟩ := (shaped_of_after hs events hc).outgoing_tick hm hr s.controller.writes
  rw [sent_of_core hc, obey_of_core hc, writes_after]
  refine ⟨?_, _, rfl, hsnd⟩
  rw [hfst, Controller.handles, hc]
  rfl

end Runs

/-! ## at a bench -/

section Benches

variable {s : Station (Bench α) BenchHandle α} {events : List (Event (Bench α) α)}
  {solve : TaskSpace.Method α}

/-- Where the bench is found changed in the course of a run, no joint has been renamed or taken away.
-/
def KeepsJoints (s : Station (Bench α) BenchHandle α) (events : List (Event (Bench α) α))
    (solve : TaskSpace.Method α) : Prop :=
  ∀ before b rest, events = before ++ .change b :: rest →
    (s.after before solve).hardware.names <+: b.names

theorem names_after_append {later : List (Event (Bench α) α)}
    (hk : s.KeepsJoints (events ++ later) solve) :
    (s.after events solve).hardware.names <+: (s.after (events ++ later) solve).hardware.names := by
  induction later using List.reverseRecOn with
  | nil => rw [List.append_nil]
  | append_singleton later e ih =>
    rw [← List.append_assoc] at hk ⊢
    have hrest : s.KeepsJoints (events ++ later) solve := fun before b rest hevents =>
      hk before b (rest ++ [e]) (by rw [hevents, List.append_assoc, List.cons_append])
    refine (ih hrest).trans ?_
    cases e with
    | change b =>
      rw [after_concat]
      exact hk _ b [] rfl
    | order o =>
      rw [after_concat]
      show _ <+: ((s.after (events ++ later) solve).obey o solve).2.hardware.names
      rw [hardware_obey, Bench.names_setAll]

/-- The handles of a controller are those that its bench has for the joints of the chain. -/
theorem handles_after (hs : s.controller.core = none) (hk : s.KeepsJoints events solve)
    {c : Core α BenchHandle} (hc : (s.after events solve).controller.core = some c) :
    List.Forall₂ (fun name j => (s.after events solve).hardware.handle? name = some j)
      c.chain.jointNames c.handles := by
  obtain ⟨config, b, ⟨before, rest, rfl, -, rfl, -⟩, hb⟩ := builtFor_of_after hs events solve hc
  obtain ⟨-, -, -, hjoints⟩ := Config.chain?_eq_ok hb.chain
  rw [hjoints]
  exact hb.handles.imp fun _ _ => Bench.handle?_of_prefix (names_after_append hk)

theorem toldOnce_tick (hs : s.controller.core = none) (hk : s.KeepsJoints events solve)
    {c : Core α BenchHandle} (hc : (s.after events solve).controller.core = some c)
    {error : Axes α} {period : Period} (hrun : (s.after events solve).controller.state = .running)
    (hr : ((s.after events solve).obey (.tick error period) solve).1 = .ok ()) :
    (s.after events solve).hardware.ToldOnce c.chain.jointNames
      ((s.after events solve).obey (.tick error period) solve).2.hardware := by
  have hfst := (sent_tick hs events hrun hr).1
  have hhandles := handles_after hs hk hc
  obtain ⟨_, _, -, hb⟩ := builtFor_of_after hs events solve hc
  rw [Controller.handles, hc] at hfst
  change _ = c.handles at hfst
  rw [← hfst] at hhandles
  rw [hardware_obey]
  exact Bench.toldOnce_setAll hhandles (Config.nodup_jointNames_of_chain? hb.chain)

end Benches

/-- **Lifecycle and shape.** At the end of every run of a station without a core: the controller is
uninitialized exactly if no configuration has been answered with success; its core, if it has one, is
in shape and settled for good; a start is refused only for want of a configuration, and a tick never
because the chain does not fit; and a tick that succeeds while the controller runs sends to every
handle its component of the new motion. At a bench whose joints keep their names such a tick is one
command to each joint of the chain and changes no other joint. -/
theorem lifecycle_and_shape [JointBus H J α] (solve : TaskSpace.Method α) :
    (∀ s : Station H J α, s.controller.core = none → ∀ events : List (Event H α),
      ((s.after events solve).controller.state = .uninitialized ↔ ¬ s.Configured events solve) ∧
      (∀ c, (s.after events solve).controller.core = some c → s.Established events solve c) ∧
      (∀ f, ((s.after events solve).obey .start solve).1 = .error f →
        f = .refused .notInitialized) ∧
      ∀ (error : Axes α) (period : Period),
        (∀ e, ((s.after events solve).obey (.tick error period) solve).1 ≠
          .error (.refused (.kinematics e))) ∧
        ((s.after events solve).controller.state = .running →
          ((s.after events solve).obey (.tick error period) solve).1 = .ok () →
          ((s.after events solve).sent (.tick error period) solve).map Prod.fst =
              (s.after events solve).controller.handles ∧
            ∃ m, ((s.after events solve).obey (.tick error period) solve).2.controller.motion? =
                some m ∧
              ((s.after events solve).sent (.tick error period) solve).map Prod.snd =
                m.commands s.controller.writes)) ∧
    ∀ s : Station (Bench α) BenchHandle α, s.controller.core = none →
      ∀ events : List (Event (Bench α) α), s.KeepsJoints events solve →
      ∀ (c : Core α BenchHandle) (error : Axes α) (period : Period),
        (s.after events solve).controller.core = some c →
        (s.after events solve).controller.state = .running →
        ((s.after events solve).obey (.tick error period) solve).1 = .ok () →
        (s.after events solve).hardware.ToldOnce c.chain.jointNames
          ((s.after events solve).obey (.tick error period) solve).2.hardware := by
  refine ⟨fun s hs events => ⟨state_after_iff hs events solve, ?_, ?_, ?_⟩, ?_⟩
  · exact fun c hc => established hs events hc
  · exact fun f hr => notInitialized_of_start hs events hr
  · exact fun error period => ⟨tick_ne_kinematics hs events solve error period,
      fun hrun hr => sent_tick hs events hrun hr⟩
  · exact fun s hs events hk c error period hc hrun hr => toldOnce_tick hs hk hc hrun hr

/-- The tick after the start tells the lift and the hand of the arm where to be. -/
theorem first_tick_tells_both_joints :
    ∃ c, (Sample.station.after Sample.setUp).controller.core = some c ∧
      c.chain.jointNames = ["lift", "turn"] ∧ c.Shaped ∧
      ((Sample.station.after Sample.setUp).sent (.tick Sample.error Sample.period)).map Prod.fst =
        [⟨"lift", 0⟩, ⟨"turn", 1⟩] ∧
      (Sample.station.after Sample.setUp).hardware.ToldOnce c.chain.jointNames
        ((Sample.station.after Sample.setUp).obey (.tick Sample.error Sample.period)).2.hardware := by
  have hs : Sample.station.controller.core = none := rfl
  have hrun : (Sample.station.after Sample.setUp).controller.state = .running := by decide +kernel
  have hr : ((Sample.station.after Sample.setUp).obey (.tick Sample.error Sample.period)).1 =
      .ok () := by decide +kernel
  have hk : Sample.station.KeepsJoints Sample.setUp TaskSpace.solve := by
    intro before b rest hevents
    have hmem : Event.change b ∈ Sample.setUp := by
      rw [hevents]
      exact List.mem_append_right before List.mem_cons_self
    simp [Sample.setUp] at hmem
  obtain ⟨c, hc, -⟩ := running_core hrun
  obtain ⟨hruns, hbench⟩ := lifecycle_and_shape (H := Bench Float) (J := BenchHandle) TaskSpace.solve
  obtain ⟨-, hcore, -, htick⟩ := hruns Sample.station hs Sample.setUp
  have hnames : (Sample.station.after Sample.setUp).controller.chain?.map Chain.jointNames =
      some ["lift", "turn"] := by decide +kernel
  have hhandles : (Sample.station.after Sample.setUp).controller.handles =
      [⟨"lift", 0⟩, ⟨"turn", 1⟩] := by decide +kernel
  refine ⟨c, hc, ?_, (hcore c hc).shaped, ?_, ?_⟩
  · rw [Controller.chain?, hc] at hnames
    exact Option.some.inj hnames
  · rw [← hhandles]
    exact ((htick Sample.error Sample.period).2 hrun hr).1
  · exact hbench Sample.station hs Sample.setUp hk c Sample.error Sample.period hc hrun hr

end Station

end ArmServo
