import ArmServo.Proofs.CommandLine.Run

/-!
# A paused run is a shorter run

Between the pause and the resume of a run nothing happens, so that a run with a pause ends where a run
without one ends that leaves the paused periods out. Both have sent one command to every joint in each
of these periods; only the mode at the end may be different.

Main statement: `paused_run_is_shorter_run`.
-/

namespace ArmServo

/-! ## what a mode leaves as it is -/

namespace Station

variable {J : Type} {s : Station (Bench Float) J Float}

theorem motion?_withMode (mode : Mode) :
    (s.withMode mode).controller.motion? = s.controller.motion? := by
  unfold Controller.motion? withMode
  dsimp only
  rw [Option.map_map]
  rfl

theorem handles_withMode (mode : Mode) :
    (s.withMode mode).controller.handles = s.controller.handles := by
  unfold Controller.handles withMode
  dsimp only
  rw [Option.map_map]
  rfl

theorem tipPose?_withMode (mode : Mode) :
    (s.withMode mode).controller.tipPose? = s.controller.tipPose? := by
  unfold Controller.tipPose? Controller.core? withMode
  cases s.controller.core <;> rfl

theorem state_withMode_eq_paused_iff {c : Core Float J} (hc : s.controller.core = some c)
    (mode : Mode) : (s.withMode mode).controller.state = .paused ↔ mode = .paused := by
  unfold Controller.state
  rw [core_withMode hc]
  cases mode with
  | running => exact ⟨nofun, nofun⟩
  | paused => exact ⟨fun _ => rfl, fun _ => rfl⟩

theorem state_withMode_eq_running_iff {c : Core Float J} (hc : s.controller.core = some c)
    (mode : Mode) : (s.withMode mode).controller.state = .running ↔ mode ≠ .paused := by
  unfold Controller.state
  rw [core_withMode hc]
  cases mode with
  | running => exact ⟨fun _ => nofun, fun _ => rfl⟩
  | paused => exact ⟨nofun, fun h => absurd rfl h⟩

end Station

namespace CommandLine

theorem tail_reportLines_withMode (s : Station (Bench Float) BenchHandle Float) (mode : Mode)
    (tip : Pose Float) : (reportLines (s.withMode mode) tip).tail = (reportLines s tip).tail := by
  unfold reportLines
  rw [Station.handles_withMode]
  rfl

/-! ## the two runs -/

section Runs

variable {c : Config Float} {o : RunOptions} {kind : CommandKind} {period : Period}
  {error : Axes Float} {start : List Float} {schedule : Schedule}

/-- **The station at the end of a run with a schedule**, or the failure of the run, while the time is
in range. -/
theorem simulate?_schedule (schedule : Schedule) {ticks : Nat}
    (hfits : period.nanos * ticks < Period.bound) :
    simulate? c kind period ⟨error, start, ticks, schedule⟩ =
      (simulate? c kind period ⟨error, start, schedule.running ticks, {}⟩).map
        (Station.withMode · (schedule.modeAfter ticks)) := by
  have hshorter : period.nanos * schedule.running ticks < Period.bound :=
    lt_of_le_of_lt (Nat.mul_le_mul_left _ (schedule.running_le ticks)) hfits
  cases hb : Station.buildCore? kind (runBench c start) c with
  | error e =>
    rw [simulate?_of_refused hb _ rfl, simulate?_of_refused hb _ rfl]
    rfl
  | ok core =>
    obtain ⟨hwork, -⟩ := atWork_begun hb
    rw [simulate?_of_core hb, simulate?_of_core hb]
    split
    · rw [Station.runPeriods_eq, Station.runPeriods_eq, if_pos hfits, if_pos hshorter,
        Station.periods_run (Station.state_of_mode hwork.core hwork.mode)]
      rcases (Station.periods {} error period (schedule.running ticks)).run
        (begun c kind start core) with ⟨_ | _, s⟩ <;> rfl
    · rfl

theorem checkSchedule_of_isOrdered (h : schedule.IsOrdered) : checkSchedule schedule = .ok () := by
  unfold checkSchedule
  split
  next pause resume hpause hresume =>
    obtain ⟨pause', hpause', hlt⟩ := h resume hresume
    cases hpause.symm.trans hpause'
    exact if_neg (not_le.mpr hlt)
  next => rfl

theorem Prepared.reschedule (h : Prepared c o kind period error start) {schedule : Schedule}
    (hschedule : checkSchedule schedule = .ok ()) (ticks : Nat) :
    Prepared c { o with ticks := ticks, schedule := schedule } kind period error start :=
  { h with schedule := hschedule }

theorem prepared_of_runConfig? {s : Station (Bench Float) BenchHandle Float}
    (h : runConfig? c o = .ok s) : ∃ kind period error start,
      Prepared c o kind period error start ∧
        simulate? c kind period ⟨error, start, o.ticks, o.schedule⟩ = .ok s := by
  obtain ⟨kind, period, error, start, hp⟩ | ⟨e, he⟩ := prepared_or_failed c o
  · exact ⟨kind, period, error, start, hp, (runConfig?_of_prepared hp).symm.trans h⟩
  · rw [he] at h
    cases h

/-- **A run with a pause succeeds exactly if the shorter run does**, and ends at the same station in
the mode of its schedule. -/
theorem runConfig?_schedule (o : RunOptions) (h : o.schedule.IsOrdered)
    (hfits : ∀ p, c.period? = .ok p → p.nanos * o.ticks < Period.bound)
    {s : Station (Bench Float) BenchHandle Float} :
    runConfig? c o = .ok s ↔ ∃ t,
      runConfig? c { o with ticks := o.schedule.running o.ticks, schedule := {} } = .ok t ∧
        s = t.withMode (o.schedule.modeAfter o.ticks) := by
  have hnone : checkSchedule {} = .ok () := rfl
  constructor
  · intro hs
    obtain ⟨kind, period, error, start, hp, hsim⟩ := prepared_of_runConfig? hs
    rw [simulate?_schedule _ (hfits period hp.period)] at hsim
    rw [runConfig?_of_prepared (hp.reschedule hnone _)]
    cases ht : simulate? c kind period ⟨error, start, o.schedule.running o.ticks, {}⟩ with
    | error e =>
      rw [ht] at hsim
      cases hsim
    | ok t =>
      rw [ht] at hsim
      cases hsim
      exact ⟨t, rfl, rfl⟩
  · rintro ⟨t, ht, rfl⟩
    obtain ⟨kind, period, error, start, hp, hsim⟩ := prepared_of_runConfig? ht
    have hp' : Prepared c o kind period error start :=
      hp.reschedule (checkSchedule_of_isOrdered h) o.ticks
    rw [runConfig?_of_prepared hp', simulate?_schedule _ (hfits period hp.period)]
    change simulate? c kind period ⟨error, start, o.schedule.running o.ticks, {}⟩ = .ok t at hsim
    rw [hsim]
    rfl

theorem totalWrites_begun (c : Config Float) (kind : CommandKind) (start : List Float)
    (core : Core Float BenchHandle) : (begun c kind start core).hardware.totalWrites = 0 :=
  Bench.totalWrites_ofList _

/-- **A run without a pause** ends running, after one command in every period to every joint. -/
theorem unpaused_run (ho : o.schedule = {})
    (hfits : ∀ p, c.period? = .ok p → p.nanos * o.ticks < Period.bound)
    {s : Station (Bench Float) BenchHandle Float} (hs : runConfig? c o = .ok s) :
    (∃ core, s.AtWork core) ∧ s.hardware.totalWrites = c.joints.length * o.ticks := by
  obtain ⟨kind, period, error, start, hp, hsim⟩ := prepared_of_runConfig? hs
  rw [ho] at hsim
  cases hb : Station.buildCore? kind (runBench c start) c with
  | error e =>
    rw [simulate?_of_refused hb _ rfl] at hsim
    cases hsim
  | ok core =>
    obtain ⟨hwork, hhandles⟩ := atWork_begun hb
    rw [simulate?_of_core hb] at hsim
    split at hsim
    · rw [Station.runPeriods_eq, if_pos (hfits period hp.period)] at hsim
      rcases hrun : (Station.periods {} error period o.ticks).run (begun c kind start core)
        with ⟨_ | _, t⟩
      · rw [hrun] at hsim
        cases hsim
      · rw [hrun] at hsim
        cases hsim
        obtain ⟨d, hd, -, hwrites⟩ := hwork.periods hrun
        refine ⟨⟨d, hd⟩, ?_⟩
        rw [hwrites, totalWrites_begun, Nat.zero_add]
        exact congrArg (· * o.ticks) hhandles
    · cases hsim

theorem runText?_eq_ok_iff {files : Files} {text : String} :
    runText? files o = .ok text ↔ ∃ c s tip, load? files o.config = .ok c ∧
      runConfig? c o = .ok s ∧ s.controller.tipPose? = .ok tip ∧
      text = unlines (reportLines s tip) := by
  unfold runText?
  simp only [bind_eq_ok, mapError_eq_ok]
  constructor
  · rintro ⟨c, hc, s, hs, tip, htip, h⟩
    exact ⟨c, s, tip, hc, hs, htip, (Except.ok.inj h).symm⟩
  · rintro ⟨c, s, tip, hc, hs, htip, rfl⟩
    exact ⟨c, hc, s, hs, tip, htip, rfl⟩

end Runs

/-- **A paused run is a shorter run.** With ordered places of a pause and a resume, and all periods
together in range, a run succeeds exactly if the run without a pause succeeds that leaves the paused
periods out. Both then end at the same positions, motion and pose, and print the same but for the mode,
which is the one of the schedule; both have sent one command to every joint in every running period. -/
theorem paused_run_is_shorter_run (files : Files) (path error : String) (start : Option String)
    (ticks : Nat) {schedule : Schedule} (hordered : schedule.IsOrdered)
    (hfits : ∀ c period, load? files path = .ok c → c.period? = .ok period →
      period.nanos * ticks < Period.bound) :
    let shorter := ticks - schedule.paused ticks
    let o : RunOptions := ⟨path, ticks, error, start, false, schedule⟩
    let o' : RunOptions := ⟨path, shorter, error, start, false, {}⟩
    ((∃ text, runText? files o = .ok text) ↔ ∃ text, runText? files o' = .ok text) ∧
      ∀ c s s', load? files path = .ok c → runConfig? c o = .ok s → runConfig? c o' = .ok s' →
        s.hardware.positions = s'.hardware.positions ∧
        s.controller.motion? = s'.controller.motion? ∧
        s.controller.tipPose? = s'.controller.tipPose? ∧
        (∀ tip, (reportLines s tip).tail = (reportLines s' tip).tail) ∧
        s.hardware.totalWrites = c.joints.length * shorter ∧
        s'.hardware.totalWrites = c.joints.length * shorter ∧
        (s.controller.state = .paused ↔ schedule.EndsPaused ticks) ∧
        (s.controller.state = .running ↔ ¬ schedule.EndsPaused ticks) ∧
        s'.controller.state = .running := by
  intro shorter o o'
  have hshorter : schedule.running ticks = shorter := schedule.running_eq hordered ticks
  have hruns : ∀ c, load? files path = .ok c → ∀ s, runConfig? c o = .ok s ↔ ∃ t,
      runConfig? c o' = .ok t ∧ s = t.withMode (schedule.modeAfter ticks) := by
    intro c hc s
    have h := runConfig?_schedule o hordered (hfits c · hc) (s := s)
    rwa [hshorter] at h
  constructor
  · constructor
    · rintro ⟨text, h⟩
      obtain ⟨c, s, tip, hc, hs, htip, -⟩ := runText?_eq_ok_iff.mp h
      obtain ⟨t, ht, rfl⟩ := (hruns c hc s).mp hs
      rw [Station.tipPose?_withMode] at htip
      exact ⟨_, runText?_eq_ok_iff.mpr ⟨c, t, tip, hc, ht, htip, rfl⟩⟩
    · rintro ⟨text, h⟩
      obtain ⟨c, t, tip, hc, ht, htip, -⟩ := runText?_eq_ok_iff.mp h
      have hs := (hruns c hc _).mpr ⟨t, ht, rfl⟩
      rw [← Station.tipPose?_withMode (schedule.modeAfter ticks)] at htip
      exact ⟨_, runText?_eq_ok_iff.mpr ⟨c, _, tip, hc, hs, htip, rfl⟩⟩
  · intro c s s' hc hs hs'
    obtain ⟨t, ht, rfl⟩ := (hruns c hc s).mp hs
    cases ht.symm.trans hs'
    have hfits' : ∀ p, c.period? = .ok p → p.nanos * shorter < Period.bound := fun p hp =>
      lt_of_le_of_lt (Nat.mul_le_mul_left _ (Nat.sub_le _ _)) (hfits c p hc hp)
    obtain ⟨⟨core, hwork⟩, hwrites⟩ := unpaused_run rfl hfits' ht
    have hmode := Schedule.modeAfter_eq_paused_iff hordered ticks
    have hpaused := Station.state_withMode_eq_paused_iff hwork.core (schedule.modeAfter ticks)
    have hrunning := Station.state_withMode_eq_running_iff hwork.core (schedule.modeAfter ticks)
    exact ⟨rfl, Station.motion?_withMode _, Station.tipPose?_withMode _,
      fun tip => tail_reportLines_withMode _ _ tip, hwrites, hwrites, hpaused.trans hmode,
      hrunning.trans (not_congr hmode), Station.state_of_mode hwork.core hwork.mode⟩

/-- A file with a lift and nothing else. -/
def liftFile : String :=
  "base_frame = \"floor\"\n" ++
  "tip_frame = \"carriage\"\n" ++
  "joints = [\"lift\"]\n" ++
  "command_type = \"position\"\n" ++
  "gains.trans_z.p = 1.0\n" ++
  "[[segments]]\n" ++
  "joint = \"lift\"\n" ++
  "link = \"carriage\"\n" ++
  "kind = \"prismatic\"\n" ++
  "axis = [0.0, 0.0, 1.0]\n"

/-- What the file says. -/
def lift : Config Float where
  rootFrame := none
  baseFrame := "floor"
  tipFrame := "carriage"
  joints := ["lift"]
  commandKind := some .position
  periodMs := 2.0
  damping := 0.001
  gains := { Pid.SpatialGains.uniform .zero with transZ := ⟨1.0, 0.0, 0.0, 0.0⟩ }
  segments := [⟨"lift", "carriage", .prismatic, .unitZ, .zero, .zero, .free⟩]

/-- Every file is the one of the lift. -/
def liftFiles : Files := fun _ => .ok liftFile.toUTF8

theorem load?_lift : load? liftFiles "lift.toml" = .ok lift := by decide +kernel


/-- Of five periods of the lift the second and the third are paused. -/
theorem paused_lift :
    (∀ c period, load? liftFiles "lift.toml" = .ok c → c.period? = .ok period →
      period.nanos * 5 < Period.bound) ∧
    ∃ s s', load? liftFiles "lift.toml" = .ok lift ∧
      runConfig? lift ⟨"lift.toml", 5, "0,0,1,0,0,0", none, false, ⟨some 1, some 3⟩⟩ = .ok s ∧
      runConfig? lift ⟨"lift.toml", 3, "0,0,1,0,0,0", none, false, {}⟩ = .ok s' ∧
      s.hardware.positions = s'.hardware.positions ∧ s.hardware.totalWrites = 3 ∧
      s.controller.state = .running := by
  have hordered : (⟨some 1, some 3⟩ : Schedule).IsOrdered := by
    rintro _ ⟨⟩
    exact ⟨1, rfl, by decide⟩
  have hgoesOn : ¬ (⟨some 1, some 3⟩ : Schedule).EndsPaused 5 := fun h =>
    absurd (h.2 3 rfl) (by decide)
  have hperiod : lift.period? = .ok ⟨2000000⟩ := by decide +kernel
  have hfits : ∀ c period, load? liftFiles "lift.toml" = .ok c → c.period? = .ok period →
      period.nanos * 5 < Period.bound := by
    intro c period hc hp
    cases load?_lift.symm.trans hc
    cases hperiod.symm.trans hp
    decide
  obtain ⟨hsucceeds, hends⟩ :=
    paused_run_is_shorter_run liftFiles "lift.toml" "0,0,1,0,0,0" none 5 hordered hfits
  have hshorter : ∃ text, runText? liftFiles ⟨"lift.toml", 3, "0,0,1,0,0,0", none, false, {}⟩ =
      .ok text := by
    refine exists_ok_of_isOk ?_
    unfold runText?
    rw [load?_lift]
    decide +kernel
  obtain ⟨_, h⟩ := hsucceeds.mpr hshorter
  obtain ⟨_, h'⟩ := hshorter
  obtain ⟨c, s, -, hc, hs, -⟩ := runText?_eq_ok_iff.mp h
  obtain ⟨c', s', -, hc', hs', -⟩ := runText?_eq_ok_iff.mp h'
  cases load?_lift.symm.trans hc
  cases load?_lift.symm.trans hc'
  obtain ⟨hpositions, -, -, -, hwrites, -, -, hstate, -⟩ := hends lift s s' load?_lift hs hs'
  exact ⟨hfits, s, s', load?_lift, hs, hs', hpositions, hwrites, hstate.mpr hgoesOn⟩

end CommandLine

end ArmServo
