import ArmServo.Hardware.Bus
import ArmServo.Proofs.Chain.Faults
import ArmServo.Proofs.Config.Chain

/-!
# Well-formed configurations

What a configuration has to be so that it can be taken up, said without the order in which it is
tested: parameters that are there and make sense, a description without repeated names whose moving
joints have axes and limits, and a run from the base to the tip that has the listed joints.

Main statements: `validate?_eq_ok_iff`, `chain?_eq_ok_iff`.
-/

namespace ArmServo

variable {α : Type}

namespace SegmentEntry

/-- The frame behind the given entries, of which the first stands in `frame`. -/
def lastFrame (frame : String) (entries : List (SegmentEntry α)) : String :=
  (entries.getLast?.map SegmentEntry.link).getD frame

/-- The names of the joints that move, in order. -/
def movingJoints (entries : List (SegmentEntry α)) : List String :=
  (entries.filter (·.kind.isActuated)).map SegmentEntry.joint

end SegmentEntry

namespace Config

/-- The first frame of the description. -/
def root (c : Config α) : String := c.rootFrame.getD c.baseFrame

/-- The entries lead from the base frame to the tip frame. -/
def IsRun (c : Config α) (run : List (SegmentEntry α)) : Prop :=
  run ≠ [] ∧ SegmentEntry.lastFrame c.baseFrame run = c.tipFrame ∧
    ∃ before after, c.segments = before ++ run ++ after ∧
      SegmentEntry.lastFrame c.root before = c.baseFrame

/-- The configuration can be taken up by a controller that writes commands of the given kind, with
hardware that has its joints. -/
structure WellFormed {H J : Type} [JointBus H J Float] (c : Config Float) (writes : CommandKind)
    (h : H) : Prop where
  baseFrame : c.baseFrame ≠ ""
  tipFrame : c.tipFrame ≠ ""
  joints : c.joints ≠ []
  segments : c.segments ≠ []
  commandKind : c.commandKind = some writes
  period : 0 < c.periodMs ∧ ∃ n, Scalar.nanoseconds? (c.periodMs / 1000.0) = some n ∧ 0 < n
  gains : ∀ axis, ∀ x ∈ (c.gains.get axis).toList, x.isFinite = true
  damping : c.damping.isFinite = true ∧ 0 ≤ c.damping
  frames : (c.root :: c.segments.map SegmentEntry.link).Nodup
  names : (SegmentEntry.movingJoints c.segments).Nodup
  moving : ∀ s ∈ c.segments, s.kind.isActuated = true →
    s.axis.norm.isFinite = true ∧ 1e-9 ≤ s.axis.norm ∧ s.limits.lower ≤ s.limits.upper
  /-- The listed joints are those that move between base and tip. -/
  run : ∃ run, c.IsRun run ∧ SegmentEntry.movingJoints run = c.joints
  handles : ∀ joint ∈ c.joints, ∃ j, JointBus.handle? h joint = some j

/-! ## parameters -/

section Parameters

variable [Scalar α]

theorem period?_eq_ok_iff {c : Config α} {p : Period} :
    c.period? = .ok p ↔ 0 < c.periodMs ∧
      Scalar.nanoseconds? (c.periodMs / Scalar.ofNat 1000) = some p.nanos ∧ 0 < p.nanos := by
  unfold period?
  by_cases hpos : 0 < c.periodMs
  · rw [if_pos hpos]
    rcases hn : Scalar.nanoseconds? (c.periodMs / Scalar.ofNat 1000) with _ | _ | n
    · exact ⟨fun h => (nomatch h), fun h => (nomatch h.2.1)⟩
    · constructor
      · intro h
        cases h
      · rintro ⟨-, hzero, hlt⟩
        rw [← Option.some.inj hzero] at hlt
        exact absurd hlt (Nat.lt_irrefl 0)
    · constructor
      · intro h
        cases h
        exact ⟨hpos, rfl, Nat.succ_pos n⟩
      · rintro ⟨-, hsome, -⟩
        obtain ⟨m⟩ := p
        cases hsome
        rfl
  · rw [if_neg hpos]
    exact ⟨fun h => (nomatch h), fun h => absurd h.1 hpos⟩

theorem faultyAxis?_eq_find? (c : Config α) :
    c.faultyAxis? = Axis.all.find? fun k => !(c.gains.get k).isFinite := by
  unfold faultyAxis?
  rw [Pid.SpatialGains.toList_eq_map, ← List.map_prod_left_eq_zip, List.find?_map, Option.map_map]
  exact Option.map_id'

theorem faultyAxis?_eq_none_iff {c : Config α} :
    c.faultyAxis? = none ↔ ∀ axis, (c.gains.get axis).isFinite = true := by
  rw [faultyAxis?_eq_find?, List.find?_eq_none]
  constructor
  · intro h axis
    have haxis := h axis (by cases axis <;> decide)
    simpa using haxis
  · intro h axis _
    simp [h axis]

/-- **What validation has tested**, whatever the first fault would have been. -/
theorem validate?_eq_ok_iff {c : Config α} :
    c.validate? = .ok () ↔ c.baseFrame ≠ "" ∧ c.tipFrame ≠ "" ∧ c.joints ≠ [] ∧
      c.commandKind ≠ none ∧ c.segments ≠ [] ∧ (∃ p, c.period? = .ok p) ∧
      ∀ axis, (c.gains.get axis).isFinite = true := by
  unfold validate?
  simp only [guard_eq_ok, bind_eq_ok, ← faultyAxis?_eq_none_iff, String.isEmpty_iff,
    List.isEmpty_iff, Option.isNone_iff_eq_none, ne_eq, exists_and_right]
  cases c.faultyAxis? with
  | none => simp [pure, Except.pure]
  | some axis => simp [throw, throwThe, MonadExceptOf.throw]

omit [Scalar α] in
theorem commandKind?_eq_ok_iff {c : Config α} {kind : CommandKind} :
    c.commandKind? = .ok kind ↔ c.commandKind = some kind := by
  unfold commandKind?
  cases c.commandKind with
  | none => exact ⟨fun h => (nomatch h), fun h => (nomatch h)⟩
  | some k =>
    simp [pure, Except.pure]

end Parameters

/-! ## the run -/

section Run

variable [Scalar α]

theorem movingJoints_map_toSegment (entries : List (SegmentEntry α)) :
    Segment.movingJoints (entries.map SegmentEntry.toSegment) =
      SegmentEntry.movingJoints entries := by
  unfold Segment.movingJoints SegmentEntry.movingJoints
  rw [List.filter_map, List.map_map]
  rfl

theorem map_link_map_toSegment (entries : List (SegmentEntry α)) :
    (entries.map SegmentEntry.toSegment).map Segment.link = entries.map SegmentEntry.link := by
  rw [List.map_map]
  rfl

theorem tip_of_accepted {entries : List (SegmentEntry α)} {ts : List (Segment α)}
    (h : List.Forall₂ Segment.Accepted (entries.map SegmentEntry.toSegment) ts) (frame : String) :
    Chain.tip ⟨frame, ts⟩ = SegmentEntry.lastFrame frame entries := by
  unfold Chain.tip SegmentEntry.lastFrame
  rw [← List.getLast?_map, ← List.getLast?_map, Chain.map_link_of_accepted h,
    map_link_map_toSegment]

/-- **Which descriptions are accepted.** -/
theorem description?_eq_ok_iff {c : Config α} {full : Chain α} :
    c.description? = .ok full ↔ c.segments ≠ [] ∧
      (c.root :: c.segments.map SegmentEntry.link).Nodup ∧
        (SegmentEntry.movingJoints c.segments).Nodup ∧ full.base = c.root ∧
        List.Forall₂ Segment.Accepted (c.segments.map SegmentEntry.toSegment) full.segments := by
  unfold description?
  rw [Chain.ofSegments?_eq_ok_iff, movingJoints_map_toSegment, map_link_map_toSegment, ne_eq,
    List.map_eq_nil_iff]
  rfl

/-- **What is cut out of a description**: what acceptance has made of a run. -/
theorem between?_description {c : Config α} {full chain : Chain α}
    (hfull : c.description? = .ok full) :
    full.between? c.baseFrame c.tipFrame = .ok chain ↔ chain.base = c.baseFrame ∧
      ∃ run, c.IsRun run ∧
        List.Forall₂ Segment.Accepted (run.map SegmentEntry.toSegment) chain.segments := by
  obtain ⟨-, hframes, -, hroot, hsegments⟩ := description?_eq_ok_iff.mp hfull
  have hnodup : full.frames.Nodup := by
    unfold Chain.frames
    rwa [Chain.map_link_of_accepted hsegments, map_link_map_toSegment, hroot]
  rw [Chain.between?_eq_ok_iff_run hnodup]
  constructor
  · rintro ⟨hbase, htip, hne, before', after', happ, hlast⟩
    rw [happ] at hsegments
    obtain ⟨k, after, hk, hkrun, -⟩ := forall₂_append_right hsegments
    obtain ⟨before, run, rfl, hbefore, hrun⟩ := forall₂_append_right hkrun
    obtain ⟨k', after, hc, hk', rfl⟩ := List.map_eq_append_iff.mp hk
    obtain ⟨before, run, rfl, rfl, rfl⟩ := List.map_eq_append_iff.mp hk'
    refine ⟨hbase, run, ⟨?_, ?_, before, after, hc, ?_⟩, hrun⟩
    · rintro rfl
      cases h : chain.segments with
      | nil => exact hne h
      | cons s ss =>
        rw [h] at hrun
        cases hrun
    · rw [← tip_of_accepted hrun, ← hbase]
      exact htip
    · rw [← tip_of_accepted hbefore, ← hroot]
      exact hlast
  · rintro ⟨hbase, run, ⟨hne, htip, before, after, hc, hlast⟩, hrun⟩
    rw [hc, List.map_append, List.map_append] at hsegments
    obtain ⟨ts, after', happ, hts, hafter⟩ := forall₂_append_right hsegments.flip
    obtain ⟨before', run', rfl, hbefore, hrun'⟩ := forall₂_append_right hts
    have hsame := Chain.Accepted.unique hrun hrun'.flip
    refine ⟨hbase, ?_, ?_, before', after', by rw [happ, hsame], ?_⟩
    · rw [← htip, ← tip_of_accepted hrun, ← hbase]
    · intro h
      rw [h] at hrun
      cases run with
      | nil => exact hne rfl
      | cons s ss => cases hrun
    · rw [← hlast, ← tip_of_accepted hbefore.flip, hroot]

/-- **Which configurations have a chain, and which chain it is.** -/
theorem chain?_eq_ok_iff {c : Config α} {chain : Chain α} :
    c.chain? = .ok chain ↔ c.validate? = .ok () ∧
      (c.root :: c.segments.map SegmentEntry.link).Nodup ∧
      (SegmentEntry.movingJoints c.segments).Nodup ∧
      (∀ s ∈ c.segments, ∃ t, s.toSegment.Accepted t) ∧ chain.base = c.baseFrame ∧
      ∃ run, c.IsRun run ∧ SegmentEntry.movingJoints run = c.joints ∧
        List.Forall₂ Segment.Accepted (run.map SegmentEntry.toSegment) chain.segments := by
  have hjoints : ∀ run, List.Forall₂ Segment.Accepted (run.map SegmentEntry.toSegment)
      chain.segments → chain.jointNames = SegmentEntry.movingJoints run := by
    intro run hrun
    rw [← movingJoints_map_toSegment, ← Chain.movingJoints_of_accepted hrun]
    rfl
  constructor
  · intro h
    obtain ⟨full, hfull, hchain, hnames⟩ := chain?_eq_ok h
    obtain ⟨_, hvalid, -⟩ := bind_eq_ok.mp h
    obtain ⟨-, hframes, hdistinct, -, hsegments⟩ := description?_eq_ok_iff.mp hfull
    obtain ⟨hbase, run, hrun, haccepted⟩ := (between?_description hfull).mp hchain
    refine ⟨hvalid, hframes, hdistinct, ?_, hbase, run, hrun, ?_, haccepted⟩
    · exact exists_forall₂_iff.mp ⟨_, List.forall₂_map_left_iff.mp hsegments⟩
    · rw [← hjoints run haccepted, hnames]
  · rintro ⟨hvalid, hframes, hdistinct, hall, hbase, run, hrun, hnames, haccepted⟩
    obtain ⟨ts, hts⟩ := exists_forall₂_iff.mpr hall
    have hfull : c.description? = .ok ⟨c.root, ts⟩ := by
      obtain ⟨-, -, -, -, hne, -⟩ := validate?_eq_ok_iff.mp hvalid
      exact description?_eq_ok_iff.mpr
        ⟨hne, hframes, hdistinct, rfl, List.forall₂_map_left_iff.mpr hts⟩
    have hchain := (between?_description hfull).mpr ⟨hbase, run, hrun, haccepted⟩
    unfold chain?
    rw [hvalid, bind_eq_ok.mpr ⟨_, hfull, hchain⟩]
    exact if_pos ((hjoints run haccepted).trans hnames)

/-- The chain is what acceptance makes of any run from base to tip. -/
theorem accepted_of_isRun {c : Config α} {chain : Chain α} {run : List (SegmentEntry α)}
    (h : c.chain? = .ok chain) (hrun : c.IsRun run) :
    List.Forall₂ Segment.Accepted (run.map SegmentEntry.toSegment) chain.segments := by
  obtain ⟨full, hfull, hchain, -⟩ := chain?_eq_ok h
  obtain ⟨-, -, -, hall, -⟩ := chain?_eq_ok_iff.mp h
  obtain ⟨-, -, before, after, hsplit, -⟩ := id hrun
  obtain ⟨ts, hts⟩ := exists_forall₂_iff.mpr fun s hs => hall s (by
    rw [hsplit]
    exact List.mem_append_left _ (List.mem_append_right _ hs))
  have hts := List.forall₂_map_left_iff.mpr hts
  have hsame : full.between? c.baseFrame c.tipFrame = .ok ⟨c.baseFrame, ts⟩ :=
    (between?_description hfull).mpr ⟨rfl, run, hrun, hts⟩
  rw [hchain] at hsame
  cases hsame
  exact hts

/-- **The chain of a configuration is the one that is asked for.** -/
theorem ends_of_chain? {c : Config α} {chain : Chain α} (h : c.chain? = .ok chain) :
    chain.base = c.baseFrame ∧ chain.tip = c.tipFrame ∧ chain.jointNames = c.joints := by
  obtain ⟨-, -, -, -, hbase, run, hrun, -, haccepted⟩ := chain?_eq_ok_iff.mp h
  obtain ⟨-, -, -, hnames⟩ := chain?_eq_ok h
  refine ⟨hbase, ?_, hnames⟩
  rw [← hrun.2.1, ← tip_of_accepted haccepted, ← hbase]

/-- Two configurations ask for the same run with the same parameters; where their descriptions start
and what these say outside the run may differ. -/
def AgreesOnRun (c d : Config α) : Prop :=
  d = { c with rootFrame := d.rootFrame, segments := d.segments } ∧
    ∃ run, c.IsRun run ∧ d.IsRun run

/-- **What is outside the run does not matter.** -/
theorem AgreesOnRun.chain?_eq {c d : Config α} {chain chain' : Chain α} (h : c.AgreesOnRun d)
    (hc : c.chain? = .ok chain) (hd : d.chain? = .ok chain') : chain' = chain := by
  obtain ⟨hsame, run, hrun, hrun'⟩ := h
  have hbase : chain'.base = chain.base := by
    rw [(ends_of_chain? hc).1, (ends_of_chain? hd).1, hsame]
  have hsegments : chain'.segments = chain.segments :=
    Chain.Accepted.unique (accepted_of_isRun hd hrun') (accepted_of_isRun hc hrun)
  obtain ⟨base, segments⟩ := chain
  obtain ⟨base', segments'⟩ := chain'
  cases hbase
  cases hsegments
  rfl

end Run

/-! ## doubles -/

theorem exists_accepted_iff {s : SegmentEntry Float} :
    (∃ t, s.toSegment.Accepted t) ↔ (s.kind.isActuated = true →
      s.axis.norm.isFinite = true ∧ 1e-9 ≤ s.axis.norm ∧ s.limits.lower ≤ s.limits.upper) := by
  rw [Segment.exists_accepted_iff]
  refine forall_congr' fun ha => ?_
  have haxis : s.toSegment.axis = s.axis := if_pos ha
  constructor
  · rintro ⟨⟨hfinite, hlong⟩, hlimits⟩
    rw [haxis] at hfinite hlong
    exact ⟨hfinite, hlong, hlimits⟩
  · rintro ⟨hfinite, hlong, hlimits⟩
    rw [← haxis] at hfinite hlong
    exact ⟨⟨hfinite, hlong⟩, hlimits⟩

end Config

end ArmServo
