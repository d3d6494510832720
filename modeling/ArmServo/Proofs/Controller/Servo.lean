import Mathlib
import ArmServo.Controller.Servo
import ArmServo.Proofs.Controller.Atomicity
import ArmServo.Proofs.Controller.Lifecycle
import ArmServo.Proofs.Controller.Schedule
import ArmServo.Proofs.Geometry.Rotation
import ArmServo.Proofs.Hardware.Servo
import ArmServo.Proofs.Pid.Runs

/-!
# Positions or velocities, the same motion

In exact arithmetic it does not matter whether a controller writes positions or velocities. After
every cue the measured motion of its joints is the simulated one, so that a start takes over what is
there already, and the core after a cue depends on the core before it alone. Only velocities that
were measured at the start can tell two controllers apart, and a tick that succeeds replaces them.

Main statements: `kinds_of_command_agree`, `start_velocities_show_before_a_tick`.
-/

namespace ArmServo

/-! ## the core after a cue -/

namespace Core

section Cues

variable {J α : Type} [Scalar α]

/-- The core after a cue, if its motion is what is measured. -/
def cued (c : Core α J) (cue : Cue α) : Core α J :=
  match cue with
  | .start => { c with mode := .running }
  | cue => (c.obeyed [] cue.order TaskSpace.solve).2

theorem cued_tick (c : Core α J) (error : Axes α) (period : Period) (measured : List (α × α)) :
    c.cued (.tick error period) =
      (c.obeyed measured (.tick error period) TaskSpace.solve).2 := rfl

theorem Shaped.cued {c : Core α J} (hc : c.Shaped) (cue : Cue α) : (c.cued cue).Shaped := by
  cases cue with
  | start => exact ⟨hc.handles, hc.solver⟩
  | _ => exact hc.obeyed _ _ _

/-- The core with other simulated velocities. -/
def withVelocities (c : Core α J) (v : List α) : Core α J :=
  { c with solver := c.solver.withVelocities v }

/-- Velocities have no influence on a period; one that succeeds replaces them. -/
theorem advanced_withVelocities (c : Core α J) (v : List α) (error : Axes α) (period : Period)
    (solve : TaskSpace.Method α) :
    ∃ v', (c.withVelocities v).advanced error period solve =
        ((c.advanced error period solve).1, (c.advanced error period solve).2.withVelocities v') ∧
      ((c.advanced error period solve).1 = .ok () →
        (c.advanced error period solve).2.withVelocities v' =
          (c.advanced error period solve).2) := by
  have hpid : (c.withVelocities v).pid = c.pid := rfl
  unfold advanced
  rw [hpid]
  split
  · exact ⟨v, rfl, nofun⟩
  split
  · exact ⟨v, rfl, nofun⟩
  rcases c.pid.update? error period with _ | ⟨input, pid⟩
  · exact ⟨v, rfl, nofun⟩
  dsimp only
  split
  · exact ⟨v, rfl, nofun⟩
  obtain ⟨v', hv', hok⟩ := c.solver.step_run_withVelocities v period input solve
  have hstep : (Solver.step period input solve).run (c.withVelocities v).solver = _ := hv'
  rw [hstep]
  generalize (Solver.step period input solve).run c.solver = stepped at hok ⊢
  obtain ⟨_ | _, solver⟩ := stepped
  · exact ⟨v', rfl, nofun⟩
  · refine ⟨v', rfl, fun _ => ?_⟩
    unfold withVelocities
    dsimp only
    rw [hok rfl]

theorem cued_withVelocities (c : Core α J) (v : List α) (cue : Cue α) :
    ∃ v', (c.withVelocities v).cued cue = (c.cued cue).withVelocities v' := by
  cases cue with
  | tick error period =>
    have hmode : (c.withVelocities v).mode = c.mode := rfl
    unfold cued obeyed Cue.order
    simp only [hmode]
    cases c.mode with
    | paused => exact ⟨v, rfl⟩
    | running =>
      obtain ⟨v', hv', -⟩ := c.advanced_withVelocities v error period TaskSpace.solve
      exact ⟨v', congrArg Prod.snd hv'⟩
  | _ => exact ⟨v, rfl⟩

/-- A tick that succeeds leaves nothing of the velocities before it. -/
theorem cued_withVelocities_of_tick (c : Core α J) (v : List α) {error : Axes α} {period : Period}
    (hm : c.mode = .running)
    (hok : (c.obeyed [] (.tick error period) TaskSpace.solve).1 = .ok ()) :
    (c.withVelocities v).cued (.tick error period) = c.cued (.tick error period) := by
  have hmode : (c.withVelocities v).mode = .running := hm
  rw [obeyed_of_period hm (.inr rfl)] at hok
  obtain ⟨v', hv', hsame⟩ := c.advanced_withVelocities v error period TaskSpace.solve
  rw [cued_tick _ _ _ [], cued_tick _ _ _ [], obeyed_of_period hmode (.inr rfl),
    obeyed_of_period hm (.inr rfl), hv']
  exact hsame hok

/-- **Velocities have no influence on anything else.** -/
theorem foldl_cued_withVelocities (c : Core α J) (v : List α) (cues : List (Cue α)) :
    ∃ v', cues.foldl cued (c.withVelocities v) = (cues.foldl cued c).withVelocities v' := by
  induction cues generalizing c v with
  | nil => exact ⟨v, rfl⟩
  | cons cue cues ih =>
    obtain ⟨v', hv'⟩ := c.cued_withVelocities v cue
    rw [List.foldl_cons, List.foldl_cons, hv']
    exact ih (c.cued cue) v'

/-- **After a tick that succeeds nothing is left of the velocities at the start.** -/
theorem foldl_cued_withVelocities_of_tick (c : Core α J) (v : List α) {before : List (Cue α)}
    {error : Axes α} {period : Period} (hm : (before.foldl cued c).mode = .running)
    (hok : ((before.foldl cued c).obeyed [] (.tick error period) TaskSpace.solve).1 = .ok ())
    (rest : List (Cue α)) :
    (before ++ .tick error period :: rest).foldl cued (c.withVelocities v) =
      (before ++ .tick error period :: rest).foldl cued c := by
  obtain ⟨v', hv'⟩ := c.foldl_cued_withVelocities v before
  rw [List.foldl_append, List.foldl_append, List.foldl_cons, List.foldl_cons, hv',
    cued_withVelocities_of_tick _ _ hm hok]

end Cues

/-- Over the real numbers nothing stands in the way of a period that takes time. -/
theorem advanced_eq_ok {J : Type} {c : Core ℝ J} (hc : c.Shaped)
    (hl : ∀ l ∈ c.solver.limits, l.isValid = true) (error : Axes ℝ) {period : Period}
    (hp : period.isZero = false) (solve : TaskSpace.Method ℝ) :
    (c.advanced error period solve).1 = .ok () := by
  have hfinite (v : Axes ℝ) : v.isFinite = true := rfl
  obtain ⟨x, hx⟩ := c.pid.exists_update? error hp
  have ha := c.advanced_advances error period solve
  generalize c.advanced error period solve = advanced at ha ⊢
  obtain ⟨r, d⟩ := advanced
  cases ha with
  | noTime hp' =>
    rw [hp] at hp'
    cases hp'
  | badError _ he =>
    rw [hfinite] at he
    cases he
  | unbounded _ _ hu =>
    rw [hx] at hu
    cases hu
  | badOutput _ _ _ hi =>
    rw [hfinite] at hi
    cases hi
  | @notMoved _ _ f _ _ _ _ _ hs =>
    cases f with
    | stopped => exact absurd rfl (hs.ne_stopped hl)
    | refused e =>
      -- the solver refuses a period for want of time only, which has been tested already
      cases hs with
      | noTime hp' =>
        rw [hp] at hp'
        cases hp'
      | misfit _ hj =>
        obtain ⟨columns, hok⟩ := hc.solver.jacobian?
        rw [hok] at hj
        cases hj
  | moved => rfl

end Core

namespace Station

/-- The controller has the core, and the motion of the core is what is measured at the joints of its
chain. -/
structure InStep (s : Station (Bench ℝ) BenchHandle ℝ) (c : Core ℝ BenchHandle) : Prop where
  core : s.controller.core = some c
  shaped : c.Shaped
  distinct : c.chain.jointNames.Nodup
  handles : List.Forall₂ (fun name j => s.hardware.handle? name = some j) c.chain.jointNames
    c.handles
  tracks : s.hardware.Tracks c.handles c.motion

variable {s : Station (Bench ℝ) BenchHandle ℝ} {c : Core ℝ BenchHandle}

theorem InStep.measured (h : s.InStep c) :
    c.measured s.hardware = c.positions.zip c.motion.velocities :=
  h.tracks.measured

theorem InStep.shows (h : s.InStep c) : s.hardware.Shows c.chain.jointNames c.motion :=
  h.tracks.shows h.handles

/-! ## one cue -/

/-- A station stays in step if its hardware and the motion of its core do not change. -/
theorem InStep.withCore (h : s.InStep c) {d : Core ℝ BenchHandle} (hd : d.Shaped)
    (hchain : d.chain = c.chain) (hhandles : d.handles = c.handles) (hmotion : d.motion = c.motion) :
    (s.withCore d).InStep d where
  core := rfl
  shaped := hd
  distinct := by rw [hchain]; exact h.distinct
  handles := by rw [hchain, hhandles]; exact h.handles
  tracks := by rw [hhandles, hmotion]; exact h.tracks

theorem follows_tick_run (s : Station (Bench ℝ) BenchHandle ℝ) (error : Axes ℝ) (period : Period) :
    ((follows (.tick error period)).run s).2 =
      match (s.obey (.tick error period)).1 with
      | .ok _ => follow period (s.obey (.tick error period)).2
      | .error _ => (s.obey (.tick error period)).2 := by
  show ((tickAndFollow error period).run s).2 = _
  rw [tickAndFollow_run]
  rcases s.obey (.tick error period) with ⟨_ | _, t⟩ <;> rfl

/-- What a tick does at an initialized controller, with the period that follows. -/
theorem follows_tick_of_core (hc : s.controller.core = some c) (error : Axes ℝ)
    (period : Period) :
    ((follows (.tick error period)).run s).2 =
      match (c.obeyed (c.measured s.hardware) (.tick error period) TaskSpace.solve).1 with
      | .ok _ => follow period { s.withCore
            (c.obeyed (c.measured s.hardware) (.tick error period) TaskSpace.solve).2 with
          hardware := JointBus.setAll s.hardware (c.outgoing s.controller.writes
            (c.measured s.hardware) (.tick error period) TaskSpace.solve) }
      | .error _ =>
        s.withCore (c.obeyed (c.measured s.hardware) (.tick error period) TaskSpace.solve).2 := by
  rw [follows_tick_run, obey_of_core hc]
  cases hr : (c.obeyed (c.measured s.hardware) (.tick error period) TaskSpace.solve).1 with
  | ok => rfl
  | error f =>
    rw [Core.outgoing_of_error hr]
    rfl

/-- The bench after the commands of a motion, when the joints have followed them for a period, shows
that motion. -/
theorem InStep.tracks_step (h : s.InStep c) (kind : CommandKind) {period : Period}
    {input : Axes ℝ} {solver : Solver ℝ} (hp : period.isZero = false)
    (hs : c.solver.Steps period input TaskSpace.solve (.ok ()) solver) :
    ((JointBus.setAll s.hardware (c.handles.zip (solver.motion.commands kind))).step kind
      period).Tracks c.handles solver.motion := by
  have hshaped := hs.shaped h.shaped.solver
  cases hs with
  | @moved columns m _ hj hm =>
    have hlength : c.handles.length ≤ (m.commands kind).length := by
      rw [h.shaped.handles]
      cases kind with
      | position => exact hshaped.positions.ge
      | velocity => exact hshaped.velocities.ge
    have hindex : ((c.handles.zip (m.commands kind)).map (·.1.index)).Nodup := by
      have hnodup := Bench.nodup_index h.handles h.distinct
      rwa [← List.map_fst_zip hlength, List.map_map] at hnodup
    refine Bench.tracks_of_moves (Period.seconds_pos hp) kind (h.shaped.solver.moves hj hm)
      h.tracks.positions fun command hcommand => ?_
    rw [Bench.joint_step, Bench.joint_setAll_of_mem _ hindex hcommand, Option.map_map]
    rfl

/-- A station is in step again when its joints have followed new commands for a period and show the
motion of its new core. -/
theorem InStep.moved (h : s.InStep c) {d : Core ℝ BenchHandle} (hd : d.Shaped)
    (hchain : d.chain = c.chain) (hhandles : d.handles = c.handles)
    {commands : List (BenchHandle × ℝ)} {kind : CommandKind} {period : Period}
    (htracks : ((JointBus.setAll s.hardware commands).step kind period).Tracks d.handles
      d.motion) :
    ({ s.withCore d with hardware := (JointBus.setAll s.hardware commands).step kind period } :
      Station (Bench ℝ) BenchHandle ℝ).InStep d := by
  refine ⟨rfl, hd, by rw [hchain]; exact h.distinct, ?_, htracks⟩
  rw [hchain, hhandles]
  refine h.handles.imp fun _ _ => Bench.handle?_of_prefix ?_
  show _ <+: (Bench.step _ kind period).names
  rw [Bench.names_step, Bench.names_setAll]

/-- **A tick and the period that follows keep the station in step**, whatever the kind of command. -/
theorem InStep.tick (h : s.InStep c) (error : Axes ℝ) (period : Period) :
    ((follows (.tick error period)).run s).2.InStep (c.cued (.tick error period)) := by
  have hshaped := h.shaped.cued (.tick error period)
  cases hm : c.mode with
  | paused =>
    have hcued : c.cued (.tick error period) = c := by
      unfold Core.cued Core.obeyed Cue.order
      simp only [hm]
    rw [follows_tick_run, (obey_of_isIdle h.core hm rfl TaskSpace.solve).1, hcued]
    show (follow period s).InStep c
    rwa [follow_of_paused h.core hm]
  | running =>
    have hobeyed := Core.obeyed_of_period hm (.inr (Eq.refl (Order.tick error period)))
      (c.positions.zip c.motion.velocities) TaskSpace.solve
    have ha := c.advanced_advances error period TaskSpace.solve
    rw [follows_tick_of_core h.core, h.measured]
    rw [c.cued_tick error period (c.positions.zip c.motion.velocities), hobeyed] at hshaped ⊢
    unfold Core.outgoing
    rw [hobeyed]
    generalize c.advanced error period TaskSpace.solve = advanced at ha hshaped ⊢
    obtain ⟨r, d⟩ := advanced
    -- a period that fails sends nothing and leaves the motion, so that the bench need not move
    cases ha with
    | noTime | badError | unbounded | badOutput => exact h.withCore hshaped rfl rfl rfl
    | notMoved _ _ _ _ hs => exact h.withCore hshaped hs.kept.1 rfl hs.motion_of_error
    | @moved input pid solver hp _ _ _ hs =>
      have hsent : Core.commands { c with pid := pid, solver := solver, input := input }
          s.controller.writes = c.handles.zip (solver.motion.commands s.controller.writes) := by
        unfold Core.commands
        rw [hm]
        rfl
      dsimp only
      rw [follow_of_running (c := { c with pid := pid, solver := solver, input := input }) rfl hm,
        hsent]
      exact h.moved hshaped hs.kept.1 rfl (h.tracks_step s.controller.writes hp hs)

theorem InStep.follows_start (h : s.InStep c) :
    ((Station.follows .start).run s).2 = s.withCore { c with mode := .running } := by
  have hlength : c.positions.length = c.motion.velocities.length :=
    h.shaped.solver.positions.trans h.shaped.solver.velocities.symm
  show (s.obey .start TaskSpace.solve).2 = _
  rw [obey_start h.core h.shaped, h.measured, Core.started, List.map_fst_zip hlength.le,
    List.map_snd_zip hlength.ge]
  rfl

/-- **Every cue keeps the station in step**, and the core after it depends on the core before it
alone. -/
theorem InStep.follows (h : s.InStep c) (cue : Cue ℝ) :
    ((follows cue).run s).2.InStep (c.cued cue) := by
  have hshaped := h.shaped.cued cue
  cases cue with
  | tick error period => exact h.tick error period
  | start =>
    rw [h.follows_start]
    exact h.withCore hshaped rfl rfl rfl
  | pause | resume | resetPid | timeJump | setGains gains =>
    show (s.obey _ TaskSpace.solve).2.InStep _
    rw [obey_of_core h.core]
    exact h.withCore hshaped rfl rfl rfl

/-! ## runs -/

theorem InStep.played (h : s.InStep c) (cues : List (Cue ℝ)) :
    (s.played cues).InStep (cues.foldl Core.cued c) := by
  induction cues generalizing s c with
  | nil => exact h
  | cons cue cues ih => exact ih (h.follows cue)

theorem played_concat (s : Station (Bench ℝ) BenchHandle ℝ) (cues : List (Cue ℝ)) (cue : Cue ℝ) :
    s.played (cues ++ [cue]) = ((Station.follows cue).run (s.played cues)).2 := by
  unfold played
  rw [List.foldl_append]
  rfl

/-- One more start leaves the motion as it is, and a running controller with all that it has. -/
theorem InStep.played_start (cues : List (Cue ℝ)) (h : (s.played cues).InStep c) :
    (s.played (cues ++ [.start])).controller.motion? = some c.motion ∧
      (c.mode = .running → s.played (cues ++ [.start]) = s.played cues) := by
  rw [played_concat, h.follows_start]
  refine ⟨rfl, fun hm => ?_⟩
  rw [← hm]
  exact withCore_self h.core

/-! ## launches -/

/-- A configuration for one kind of command that is accepted at a bench is accepted for the other
kind at a bench with the same joints, and the same core is built. -/
theorem buildCore?_of_names {b b' : Bench ℝ} (hnames : b.names = b'.names) {config : Config ℝ}
    {writes : CommandKind} (writes' : CommandKind)
    (hc : buildCore? writes b { config with commandKind := some writes } = .ok c) :
    buildCore? writes' b' { config with commandKind := some writes' } = .ok c := by
  obtain ⟨hvalid, -, chain, handles, solver, hchain, hhandles, hsolver, rfl⟩ :=
    buildCore?_eq_ok.mp hc
  refine buildCore?_eq_ok.mpr ⟨hvalid, rfl, chain, handles, solver, hchain, ?_, hsolver, rfl⟩
  exact hhandles.imp fun _ _ => Bench.handle?_of_prefix (hnames ▸ List.prefix_rfl)

theorem buildCore?_of_obey {H J α : Type} [Scalar α] [JointBus H J α] {s : Station H J α}
    (hs : s.controller.core = none) {config : Config α} {solve : TaskSpace.Method α}
    (h : (s.obey (.configure config) solve).1 = .ok ()) :
    ∃ c, buildCore? s.controller.writes s.hardware config = .ok c := by
  obtain ⟨e, ho⟩ | ⟨_, c, hconfig, hc, -⟩ := obey_cases_of_no_core hs (.configure config) solve
  · rw [ho] at h
    cases h
  · cases hconfig
    exact ⟨c, hc⟩

theorem obey_configure_of_no_core {H J α : Type} [Scalar α] [JointBus H J α] {s : Station H J α}
    (hs : s.controller.core = none) {config : Config α} {c : Core α J}
    (hc : buildCore? s.controller.writes s.hardware config = .ok c) (solve : TaskSpace.Method α) :
    s.obey (.configure config) solve = (.ok (), s.withCore c) := by
  rw [obey_of_no_core hs]
  dsimp only
  rw [hc]

/-- **A launch is answered with success and ends in step.** -/
theorem inStep_launched {b : Bench ℝ} {config : Config ℝ} {writes : CommandKind}
    (hc : buildCore? writes b { config with commandKind := some writes } = .ok c) :
    (fresh writes b).answers (launch writes config) = [.ok (), .ok ()] ∧
      (launched writes config b).InStep (c.started (c.measured b)) := by
  have hshaped := shaped_of_buildCore? hc
  have hbuilt := builtFor_of_buildCore? hc
  obtain ⟨-, -, -, hjoints⟩ := Config.chain?_eq_ok hbuilt.chain
  have hhandles := hbuilt.handles
  rw [← hjoints] at hhandles
  have hconfigured : (fresh writes b : Station (Bench ℝ) BenchHandle ℝ).obey
      (.configure { config with commandKind := some writes }) =
      (.ok (), (fresh writes b).withCore c) :=
    obey_configure_of_no_core rfl hc TaskSpace.solve
  have hstarted : ((fresh writes b).withCore c).obey .start =
      (.ok (), (fresh writes b).withCore (c.started (c.measured b))) :=
    obey_start (withCore_core _ c) hshaped TaskSpace.solve
  have hlaunched : launched writes config b =
      (fresh writes b).withCore (c.started (c.measured b)) := by
    show (((fresh writes b).obey (.configure { config with commandKind := some writes })).2.obey
      .start).2 = _
    rw [hconfigured, hstarted]
  constructor
  · show [((fresh writes b).obey (.configure { config with commandKind := some writes })).1,
      (((fresh writes b).obey (.configure { config with commandKind := some writes })).2.obey
        .start).1] = _
    rw [hconfigured, hstarted]
  · rw [hlaunched]
    refine ⟨rfl, ?_, Config.nodup_jointNames_of_chain? hbuilt.chain, hhandles,
      Bench.tracks_measured hhandles⟩
    have hkept := hshaped.obeyed (c.measured b) .start TaskSpace.solve
    rwa [hshaped.obeyed_start (c.length_measured b)] at hkept

/-- Starts at benches with the same measured positions differ in the velocities only. -/
theorem started_of_positions {b b' : Bench ℝ} (hpositions : b.positions = b'.positions)
    (c : Core ℝ BenchHandle) :
    c.started (c.measured b') =
      (c.started (c.measured b)).withVelocities ((c.measured b').map Prod.snd) := by
  have hfst : (c.measured b').map Prod.fst = (c.measured b).map Prod.fst := by
    unfold Core.measured
    rw [List.map_map, List.map_map]
    refine List.map_congr_left fun j _ => ?_
    show (b'.position? j).getD 0 = (b.position? j).getD 0
    rw [Bench.position?_eq_positions, Bench.position?_eq_positions, hpositions]
  unfold Core.started
  rw [hfst]
  rfl

/-- Benches with the same joints at the same positions and, where a controller has its joints, the
same velocities are measured alike. -/
theorem measured_eq {b b' : Bench ℝ} (hnames : b.names = b'.names)
    (hpositions : b.positions = b'.positions) {c : Core ℝ BenchHandle} {joints : List String}
    (hh : List.Forall₂ (fun name j => b.handle? name = some j) joints c.handles)
    (hvelocities : ∀ name ∈ joints, (b.joint? name).map BenchJoint.velocity =
      (b'.joint? name).map BenchJoint.velocity) :
    c.measured b = c.measured b' := by
  refine List.map_congr_left fun j hj => ?_
  obtain ⟨name, hname, hat⟩ := exists_of_forall₂ hh.flip hj
  have hat' : b'.handle? name = some j := Bench.handle?_of_prefix (hnames ▸ List.prefix_rfl) hat
  have hvelocity := hvelocities name hname
  rw [Bench.joint?_eq_bind, Bench.joint?_eq_bind, hat, hat'] at hvelocity
  show ((b.position? j).getD 0, (b.velocity? j).getD 0) =
    ((b'.position? j).getD 0, (b'.velocity? j).getD 0)
  rw [Bench.position?_eq_positions, Bench.position?_eq_positions, hpositions,
    show b.velocity? j = b'.velocity? j from hvelocity]

/-- In the course of some cues a tick succeeds at a running controller. -/
def HasTicked {α : Type} [Scalar α] (s : Station (Bench α) BenchHandle α) (cues : List (Cue α)) :
    Prop :=
  ∃ before error period rest, cues = before ++ .tick error period :: rest ∧
    (s.played before).controller.state = .running ∧
    ((s.played before).obey (.tick error period)).1 = .ok ()

theorem InStep.tick_obeyed {cues : List (Cue ℝ)} (h : (s.played cues).InStep c) {error : Axes ℝ}
    {period : Period} (hstate : (s.played cues).controller.state = .running)
    (hok : ((s.played cues).obey (.tick error period)).1 = .ok ()) :
    c.mode = .running ∧ (c.obeyed [] (.tick error period) TaskSpace.solve).1 = .ok () := by
  constructor
  · cases hm : c.mode with
    | running => rfl
    | paused =>
      simp only [Controller.state, h.core, hm] at hstate
      cases hstate
  · rw [obey_of_core h.core] at hok
    exact hok

/-- **Positions or velocities, the same motion.** A configuration that is accepted for one kind of
command at a bench is accepted for either kind at a bench with the same joints at the same positions,
and both controllers start. After any cues the two are at the same simulated positions, and the
simulated motion of each is what is measured at its joints. The two cores are the same, with all
velocities, once a tick has succeeded, and before that if the joints had the same velocities when the
controllers were started. One more start leaves the simulated motion as it is, and a running
controller with all that it has. -/
theorem kinds_of_command_agree {b b' : Bench ℝ} (hnames : b.names = b'.names)
    (hpositions : b.positions = b'.positions) {config : Config ℝ} {writes : CommandKind}
    (haccepted : ((fresh writes b).obey
      (.configure { config with commandKind := some writes })).1 = .ok ())
    (writes' : CommandKind) :
    (fresh writes b).answers (launch writes config) = [.ok (), .ok ()] ∧
    (fresh writes' b').answers (launch writes' config) = [.ok (), .ok ()] ∧
    ∀ cues : List (Cue ℝ), ∃ c c' : Core ℝ BenchHandle,
      ((launched writes config b).played cues).controller.core = some c ∧
      ((launched writes' config b').played cues).controller.core = some c' ∧
      ((launched writes config b).played cues).hardware.Shows c.chain.jointNames c.motion ∧
      ((launched writes' config b').played cues).hardware.Shows c.chain.jointNames c'.motion ∧
      c'.positions = c.positions ∧
      ((∀ name ∈ config.joints, (b.joint? name).map BenchJoint.velocity =
          (b'.joint? name).map BenchJoint.velocity) ∨
        (launched writes config b).HasTicked cues → c' = c) ∧
      ((launched writes config b).played (cues ++ [.start])).controller.motion? = some c.motion ∧
      ((launched writes' config b').played (cues ++ [.start])).controller.motion? =
        some c'.motion ∧
      (c.mode = .running → (launched writes config b).played (cues ++ [.start]) =
        (launched writes config b).played cues) := by
  obtain ⟨c, hc⟩ := buildCore?_of_obey rfl haccepted
  obtain ⟨hanswers, hstep⟩ := inStep_launched hc
  obtain ⟨hanswers', hstep'⟩ := inStep_launched (buildCore?_of_names hnames writes' hc)
  refine ⟨hanswers, hanswers', fun cues => ?_⟩
  have hrun := hstep.played cues
  have hrun' := hstep'.played cues
  have hstart := InStep.played_start cues hrun
  have hstart' := InStep.played_start cues hrun'
  have hsame : (∀ name ∈ config.joints, (b.joint? name).map BenchJoint.velocity =
        (b'.joint? name).map BenchJoint.velocity) ∨ (launched writes config b).HasTicked cues →
      cues.foldl Core.cued (c.started (c.measured b')) =
        cues.foldl Core.cued (c.started (c.measured b)) := by
    rintro (hvelocities | ⟨before, error, period, rest, rfl, hstate, hok⟩)
    · rw [measured_eq hnames hpositions (builtFor_of_buildCore? hc).handles hvelocities]
    · obtain ⟨hm, hobeyed⟩ := (hstep.played before).tick_obeyed hstate hok
      rw [started_of_positions hpositions]
      exact Core.foldl_cued_withVelocities_of_tick _ _ hm hobeyed rest
  obtain ⟨v, hv⟩ := (c.started (c.measured b)).foldl_cued_withVelocities
    ((c.measured b').map Prod.snd) cues
  rw [started_of_positions hpositions, hv] at hrun' hsame hstart'
  exact ⟨_, _, hrun.core, hrun'.core, hrun.shows, hrun'.shows, rfl, hsame, hstart.1, hstart'.1,
    hstart.2⟩

/-- A lift that slides between zero and one. -/
noncomputable def lift : Config ℝ where
  rootFrame := none
  baseFrame := "floor"
  tipFrame := "carriage"
  joints := ["lift"]
  commandKind := none
  periodMs := 1
  damping := 1
  gains := .uniform ⟨1, 0, 0, 0⟩
  segments := [⟨"lift", "carriage", .prismatic, .unitZ, .zero, .zero, .range 0 1⟩]

/-- A bench on which the lift is found above its range. -/
noncomputable def liftBench : Bench ℝ := .ofList [("lift", Scalar.two)]

theorem nanoseconds?_milli : Scalar.nanoseconds? ((1 : ℝ) / Scalar.ofNat 1000) = some 1000000 := by
  have h : (1 : ℝ) / Scalar.ofNat 1000 * 10 ^ 9 = ((1000000 : ℕ) : ℝ) := by
    simp only [Scalar.ofNat_real]
    norm_num
  show (if 0 ≤ (1 : ℝ) / Scalar.ofNat 1000 ∧
      roundToEven ((1 : ℝ) / Scalar.ofNat 1000 * 10 ^ 9) < Period.bound then
      some (roundToEven ((1 : ℝ) / Scalar.ofNat 1000 * 10 ^ 9)) else none) = _
  rw [h, roundToEven_natCast, if_pos]
  exact ⟨by rw [Scalar.ofNat_real]; positivity, by decide⟩

theorem validate?_lift (writes : CommandKind) :
    ({ lift with commandKind := some writes } : Config ℝ).validate? = .ok () := by
  have hperiod : ({ lift with commandKind := some writes } : Config ℝ).period? = .ok ⟨1000000⟩ := by
    unfold Config.period?
    simp only [lift, nanoseconds?_milli, zero_lt_one, if_true]
    rfl
  unfold Config.validate?
  rw [hperiod]
  rfl

theorem chain?_lift (writes : CommandKind) :
    ∃ chain, ({ lift with commandKind := some writes } : Config ℝ).chain? = .ok chain := by
  have hnorm : Vec3.norm (.unitZ : Vec3 ℝ) = 1 :=
    Vec3.norm_eq_one (by norm_num [Vec3.dot, Vec3.unitZ])
  have hmin : ¬ (1 : ℝ) < Chain.minimalAxis := not_lt.mpr (Scalar.negPowTen_real_le_one 9)
  have hdescription : ∃ axis, ({ lift with commandKind := some writes } : Config ℝ).description? =
      .ok ⟨"floor", [⟨"lift", "carriage", .prismatic, axis, .ofXyzRpy .zero .zero, .range 0 1⟩]⟩ := by
    refine ⟨Vec3.unitZ.divide 1, ?_⟩
    simp [lift, Config.description?, Chain.ofSegments?, Chain.accept, Chain.normalized?,
      SegmentEntry.toSegment, hnorm, hmin, Segment.isActuated, JointKind.isActuated, bind,
      Except.bind, pure, Except.pure, Scalar.isFinite]
  obtain ⟨axis, haxis⟩ := hdescription
  unfold Config.chain?
  rw [validate?_lift, haxis]
  exact ⟨_, rfl⟩

theorem buildCore?_lift (writes : CommandKind) :
    ∃ c, buildCore? writes liftBench { lift with commandKind := some writes } = .ok c := by
  obtain ⟨chain, hchain⟩ := chain?_lift writes
  have hdamping : (!Scalar.isFinite (1 : ℝ) || decide ((1 : ℝ) < 0)) = false :=
    decide_eq_false (not_lt.mpr zero_le_one)
  exact ⟨_, buildCore?_eq_ok.mpr ⟨validate?_lift writes, rfl, chain, [⟨"lift", 0⟩], _, hchain,
    .cons rfl .nil, if_neg (ne_true_of_eq_false hdamping), rfl⟩⟩

/-- The lift at the same place, but on the move. -/
noncomputable def driftingBench : Bench ℝ := liftBench.setMeasured "lift" Scalar.two 1

theorem handles_of_buildCore?_lift {writes : CommandKind} {c : Core ℝ BenchHandle}
    (hc : buildCore? writes liftBench { lift with commandKind := some writes } = .ok c) :
    c.handles = [⟨"lift", 0⟩] := by
  obtain ⟨-, -, -, handles, -, -, hhandles, -, rfl⟩ := buildCore?_eq_ok.mp hc
  cases hhandles with
  | cons hj hrest =>
    cases hrest
    cases hj
    rfl

/-- **Velocities at the start show until a tick has succeeded.** The lift that is found on the move
and the one that is found at rest differ in their velocities as long as there is none. -/
theorem start_velocities_show_before_a_tick :
    ¬ ∀ (b b' : Bench ℝ) (config : Config ℝ), b.names = b'.names → b.positions = b'.positions →
      ((fresh .position b).obey
        (.configure { config with commandKind := some .position })).1 = .ok () →
      ∀ cues : List (Cue ℝ), ((launched .position config b).played cues).controller.motion? =
        ((launched .velocity config b').played cues).controller.motion? := by
  intro h
  obtain ⟨c, hc⟩ := buildCore?_lift .position
  have hnames : liftBench.names = driftingBench.names := rfl
  have haccepted : ((fresh .position liftBench).obey
      (.configure { lift with commandKind := some .position })).1 = .ok () := by
    rw [obey_configure_of_no_core rfl hc]
  have hmotion := h liftBench driftingBench lift hnames rfl haccepted [.pause]
  have hstep := (inStep_launched hc).2.played [.pause]
  have hstep' := (inStep_launched (buildCore?_of_names hnames .velocity hc)).2.played [.pause]
  rw [Controller.motion?, Controller.motion?, hstep.core, hstep'.core] at hmotion
  -- a pause leaves the velocities that were measured at the start
  have hvelocities : (c.measured liftBench).map Prod.snd =
      (c.measured driftingBench).map Prod.snd :=
    congrArg Motion.velocities (Option.some.inj hmotion)
  rw [Core.measured, Core.measured, handles_of_buildCore?_lift hc] at hvelocities
  exact zero_ne_one (List.cons.inj hvelocities).1

/-- One lift is found at rest and written by positions, the other is found on the move and written
by velocities. The first tick succeeds, and with one more start after it both have the same core. -/
theorem lifts_agree :
    (launched .position lift liftBench).HasTicked
      [.tick (.uniform 1) ⟨1000000⟩, .start] ∧
    ∃ c : Core ℝ BenchHandle,
      ((launched .position lift liftBench).played
        [.tick (.uniform 1) ⟨1000000⟩, .start]).controller.core = some c ∧
      ((launched .velocity lift driftingBench).played
        [.tick (.uniform 1) ⟨1000000⟩, .start]).controller.core = some c := by
  obtain ⟨c₀, hc₀⟩ := buildCore?_lift .position
  have haccepted : ((fresh .position liftBench).obey
      (.configure { lift with commandKind := some .position })).1 = .ok () := by
    rw [obey_configure_of_no_core rfl hc₀]
  have hstep := (inStep_launched hc₀).2
  have hticked : (launched .position lift liftBench).HasTicked
      [.tick (.uniform 1) ⟨1000000⟩, .start] := by
    have hbuilt := builtFor_of_buildCore? hc₀
    refine ⟨[], .uniform 1, ⟨1000000⟩, [.start], rfl, ?_, ?_⟩
    · show (launched .position lift liftBench).controller.state = .running
      rw [Controller.state, hstep.core]
      rfl
    · show ((launched .position lift liftBench).obey (.tick _ _)).1 = .ok ()
      rw [obey_of_core hstep.core]
      show (Core.obeyed _ _ _ _).1 = _
      rw [Core.obeyed_of_period rfl (.inr rfl)]
      refine Core.advanced_eq_ok hstep.shaped ?_ _ rfl _
      show ∀ l ∈ c₀.solver.limits, l.isValid = true
      rw [hbuilt.limits]
      exact Config.isValid_of_chain? hbuilt.chain
  have hnames : liftBench.names = driftingBench.names := rfl
  obtain ⟨-, -, hcues⟩ := kinds_of_command_agree hnames rfl haccepted .velocity
  obtain ⟨c, c', hc, hc', -, -, -, hsame, -⟩ := hcues [.tick (.uniform 1) ⟨1000000⟩, .start]
  rw [hsame (.inr hticked)] at hc'
  exact ⟨hticked, c, hc, hc'⟩

end Station

end ArmServo
