import ArmServo.Proofs.Config.Acceptance
import ArmServo.Proofs.Controller.Runs
import ArmServo.Proofs.Sample

/-!
# Which configurations are taken up

A fresh controller takes up a configuration exactly if it is well-formed, and its chain is then the
one that is asked for. Where the description starts, and what it says before the base and behind the
tip, is not to be seen in the controller any more.

Main statement: `Station.takes_up_well_formed`.
-/

namespace ArmServo

open Binary64

variable {H J : Type} [JointBus H J Float]

namespace Solver

theorem exists_ofChain?_iff {α : Type} [Scalar α] {chain : Chain α} {damping : α} :
    (∃ solver, ofChain? chain damping = .ok solver) ↔
      Scalar.isFinite damping = true ∧ ¬ damping < 0 := by
  unfold ofChain?
  by_cases hbad : (!Scalar.isFinite damping || decide (damping < 0)) = true
  · rw [if_pos hbad]
    refine ⟨fun ⟨_, h⟩ => (nomatch h), fun h => ?_⟩
    simp [h] at hbad
  · rw [if_neg hbad]
    exact ⟨fun _ => by simpa using hbad, fun _ => ⟨_, rfl⟩⟩

theorem exists_ofChain?_iff_le (chain : Chain Float) {damping : Float} :
    (∃ solver, ofChain? chain damping = .ok solver) ↔
      damping.isFinite = true ∧ 0 ≤ damping := by
  rw [exists_ofChain?_iff]
  constructor
  · rintro ⟨hfinite, hneg⟩
    exact ⟨hfinite, le_of_not_lt (isNaN_of_isFinite hfinite) rfl hneg⟩
  · rintro ⟨hfinite, hle⟩
    exact ⟨hfinite, not_lt_of_le hle⟩

theorem ofChain?_of_not_le {chain : Chain Float} {damping : Float}
    (h : ¬ (damping.isFinite = true ∧ 0 ≤ damping)) :
    ofChain? chain damping = .error (.configuration (.invalidDamping damping)) := by
  rw [← exists_ofChain?_iff_le chain] at h
  unfold ofChain? at h ⊢
  split
  case isTrue => rfl
  case isFalse hgood =>
    rw [if_neg hgood] at h
    exact absurd ⟨_, rfl⟩ h

end Solver

namespace Config

theorem WellFormed.validate? {c : Config Float} {writes : CommandKind} {h : H}
    (hc : c.WellFormed writes h) : c.validate? = .ok () := by
  obtain ⟨hpos, n, hn, hlt⟩ := hc.period
  refine validate?_eq_ok_iff.mpr ⟨hc.baseFrame, hc.tipFrame, hc.joints, ?_, hc.segments,
    ⟨⟨n⟩, period?_eq_ok_iff.mpr ⟨hpos, hn, hlt⟩⟩, fun axis => ?_⟩
  · rw [hc.commandKind]
    exact Option.some_ne_none writes
  · exact List.all_eq_true.mpr (hc.gains axis)

theorem WellFormed.exists_chain? {c : Config Float} {writes : CommandKind} {h : H}
    (hc : c.WellFormed writes h) : ∃ chain, c.chain? = .ok chain := by
  have hall : ∀ s ∈ c.segments, ∃ t, s.toSegment.Accepted t :=
    fun s hs => exists_accepted_iff.mpr (hc.moving s hs)
  obtain ⟨run, hrun, hjoints⟩ := hc.run
  obtain ⟨-, -, before, after, hsplit, -⟩ := id hrun
  obtain ⟨ts, hts⟩ := exists_forall₂_iff.mpr fun s hs => hall s (by
    rw [hsplit]
    exact List.mem_append_left _ (List.mem_append_right _ hs))
  exact ⟨⟨c.baseFrame, ts⟩, chain?_eq_ok_iff.mpr ⟨hc.validate?, hc.frames, hc.names, hall, rfl,
    run, hrun, hjoints, List.forall₂_map_left_iff.mpr hts⟩⟩

end Config

namespace Station

theorem exists_buildCore?_iff {writes : CommandKind} {h : H} {c : Config Float} :
    (∃ core, buildCore? writes h c = .ok core) ↔ c.WellFormed writes h := by
  constructor
  · rintro ⟨core, hcore⟩
    obtain ⟨hvalid, hkind, chain, handles, solver, hchain, hhandles, hsolver, -⟩ :=
      buildCore?_eq_ok.mp hcore
    obtain ⟨-, hframes, hnames, hall, -, run, hrun, hjoints, -⟩ :=
      Config.chain?_eq_ok_iff.mp hchain
    obtain ⟨hbase, htip, hlisted, -, hsegments, ⟨p, hperiod⟩, hgains⟩ :=
      Config.validate?_eq_ok_iff.mp hvalid
    obtain ⟨hpos, hn, hlt⟩ := Config.period?_eq_ok_iff.mp hperiod
    exact {
      baseFrame := hbase
      tipFrame := htip
      joints := hlisted
      segments := hsegments
      commandKind := Config.commandKind?_eq_ok_iff.mp hkind
      period := ⟨hpos, p.nanos, hn, hlt⟩
      gains := fun axis => List.all_eq_true.mp (hgains axis)
      damping := (Solver.exists_ofChain?_iff_le chain).mp ⟨solver, hsolver⟩
      frames := hframes
      names := hnames
      moving := fun s hs => Config.exists_accepted_iff.mp (hall s hs)
      run := ⟨run, hrun, hjoints⟩
      handles := exists_forall₂_iff.mp ⟨handles, hhandles⟩ }
  · intro hc
    obtain ⟨chain, hchain⟩ := hc.exists_chain?
    obtain ⟨handles, hhandles⟩ := exists_forall₂_iff.mpr hc.handles
    obtain ⟨solver, hsolver⟩ := (Solver.exists_ofChain?_iff_le chain).mpr hc.damping
    exact ⟨_, buildCore?_eq_ok.mpr ⟨hc.validate?, Config.commandKind?_eq_ok_iff.mpr hc.commandKind,
      chain, handles, solver, hchain, hhandles, hsolver, rfl⟩⟩

theorem buildCore?_of_agreesOnRun {writes : CommandKind} {h : H} {c d : Config Float}
    {core core' : Core Float J} (hcd : c.AgreesOnRun d) (hc : buildCore? writes h c = .ok core)
    (hd : buildCore? writes h d = .ok core') : core' = core := by
  obtain ⟨-, -, chain, handles, solver, hchain, hhandles, hsolver, rfl⟩ := buildCore?_eq_ok.mp hc
  obtain ⟨hvalid, hkind, chain', -, -, hchain', -⟩ := buildCore?_eq_ok.mp hd
  rw [hcd.chain?_eq hchain hchain'] at hchain'
  have hsame : buildCore? writes h d =
      .ok ⟨.running, .ofGains c.gains, solver, handles, .zero⟩ := by
    refine buildCore?_eq_ok.mpr ⟨hvalid, hkind, chain, handles, solver, hchain', ?_, ?_, ?_⟩
    · rw [hcd.1]
      exact hhandles
    · rw [hcd.1]
      exact hsolver
    · rw [hcd.1]
  rw [hd] at hsame
  exact Except.ok.inj hsame

theorem obey_configure_of_buildCore? {writes : CommandKind} {h : H} {c : Config Float}
    {core : Core Float J} (hb : buildCore? writes h c = .ok core) :
    (fresh writes h : Station H J Float).obey (.configure c) =
      (.ok (), (fresh writes h).withCore core) := by
  rw [obey_of_no_core rfl]
  dsimp only [fresh]
  rw [hb]

theorem obey_configure_of_refused {writes : CommandKind} {h : H} {c : Config Float}
    {e : ControlError Float} (hb : (buildCore? writes h c : Except _ (Core Float J)) = .error e) :
    (fresh writes h : Station H J Float).obey (.configure c) =
      (.error (.refused e), fresh writes h) := by
  rw [obey_of_no_core rfl]
  dsimp only [fresh]
  rw [hb]

theorem obey_configure_eq_ok_iff {writes : CommandKind} {h : H} {c : Config Float} :
    ((fresh writes h : Station H J Float).obey (.configure c)).1 = .ok () ↔
      ∃ core : Core Float J, buildCore? writes h c = .ok core := by
  cases hb : (buildCore? writes h c : Except _ (Core Float J)) with
  | ok core =>
    rw [obey_configure_of_buildCore? hb]
    exact ⟨fun _ => ⟨core, rfl⟩, fun _ => rfl⟩
  | error e =>
    rw [obey_configure_of_refused hb]
    exact ⟨fun hr => (nomatch hr), fun ⟨_, hr⟩ => (nomatch hr)⟩

/-- **A fresh controller takes up exactly the well-formed configurations.** What it then has is the
chain from base to tip with the listed joints, and of two configurations that ask for the same run it
cannot tell which one it was. -/
theorem takes_up_well_formed (writes : CommandKind) (h : H) :
    (∀ c : Config Float, ((fresh writes h : Station H J Float).obey (.configure c)).1 = .ok () ↔
      c.WellFormed writes h) ∧
    (∀ c : Config Float, ((fresh writes h : Station H J Float).obey (.configure c)).1 = .ok () →
      ∃ chain, ((fresh writes h : Station H J Float).obey (.configure c)).2.controller.chain? =
          some chain ∧
        chain.base = c.baseFrame ∧ chain.tip = c.tipFrame ∧ chain.jointNames = c.joints) ∧
    (∀ c d : Config Float, c.AgreesOnRun d →
      ((fresh writes h : Station H J Float).obey (.configure c)).1 = .ok () →
      ((fresh writes h : Station H J Float).obey (.configure d)).1 = .ok () →
      ((fresh writes h : Station H J Float).obey (.configure d)).2 =
        ((fresh writes h : Station H J Float).obey (.configure c)).2) := by
  refine ⟨fun c => ?_, fun c hc => ?_, fun c d hcd hc hd => ?_⟩
  · exact obey_configure_eq_ok_iff.trans exists_buildCore?_iff
  · obtain ⟨core, hcore⟩ := obey_configure_eq_ok_iff.mp hc
    rw [obey_configure_of_buildCore? hcore]
    exact ⟨core.chain, rfl, Config.ends_of_chain? (builtFor_of_buildCore? hcore).chain⟩
  · obtain ⟨core, hcore⟩ := obey_configure_eq_ok_iff.mp hc
    obtain ⟨core', hcore'⟩ := obey_configure_eq_ok_iff.mp hd
    rw [obey_configure_of_buildCore? hcore, obey_configure_of_buildCore? hcore',
      buildCore?_of_agreesOnRun hcd hcore hcore']

/-- The arm on a post above a cellar, with a camera on its hand that can be tilted. -/
def mountedArm : Config Float := { Sample.arm with
  rootFrame := some "cellar"
  segments := [⟨"post", "floor", .fixed, .zero, ⟨0.0, 0.0, 3.0⟩, .zero, .free⟩] ++
    Sample.arm.segments ++ [⟨"tilt", "camera", .revolute, .unitZ, .zero, .zero, .free⟩] }

theorem arm_agreesOnRun_mountedArm : Sample.arm.AgreesOnRun mountedArm :=
  ⟨rfl, Sample.arm.segments, ⟨by decide, by decide, [], [], by simp, by decide⟩,
    by decide, by decide, _, _, rfl, by decide⟩

/-- A controller has the same arm whether it stands on its post or not. -/
theorem mounted_arm_is_the_arm :
    mountedArm.WellFormed .position Sample.bench ∧
      (Sample.station.obey (.configure mountedArm)).2 =
        (Sample.station.obey (.configure Sample.arm)).2 := by
  obtain ⟨haccepts, -, hsame⟩ := takes_up_well_formed .position Sample.bench
  have harm : (Sample.station.obey (.configure Sample.arm)).1 = .ok () := by decide +kernel
  have hmounted : (Sample.station.obey (.configure mountedArm)).1 = .ok () := by decide +kernel
  exact ⟨(haccepts mountedArm).mp hmounted,
    hsame Sample.arm mountedArm arm_agreesOnRun_mountedArm harm hmounted⟩

end Station

end ArmServo
