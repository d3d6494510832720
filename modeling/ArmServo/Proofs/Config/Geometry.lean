import ArmServo.Proofs.Config.Acceptance
import ArmServo.Proofs.Geometry.Finite
import ArmServo.Proofs.Sample

/-!
# Finite geometry of accepted configurations

Of the geometry of a configuration only the axes of moving joints are tested. They are finite in
every chain that is accepted, and dividing them by their length keeps them so. Where a joint is
placed and how it is turned there is taken over as it stands: the chain is finite exactly if these
are, and no other placement would have been refused.

Main statement: `geometry_is_finite_iff`.
-/

namespace ArmServo

open Binary64

/-! ## placements are not tested -/

section Placed

variable {α : Type}

/-- The entry with its joint placed elsewhere. -/
def SegmentEntry.placed (e : SegmentEntry α) (place : Vec3 α × Vec3 α) : SegmentEntry α :=
  { e with xyz := place.1, rpy := place.2 }

/-- The configuration with its joints placed elsewhere. -/
def Config.placed (c : Config α) (place : SegmentEntry α → Vec3 α × Vec3 α) : Config α :=
  { c with segments := c.segments.map fun e => e.placed (place e) }

namespace SegmentEntry

variable (place : SegmentEntry α → Vec3 α × Vec3 α)

theorem lastFrame_placed (frame : String) (entries : List (SegmentEntry α)) :
    lastFrame frame (entries.map fun e => e.placed (place e)) = lastFrame frame entries := by
  unfold lastFrame
  rw [List.getLast?_map, Option.map_map]
  rfl

theorem movingJoints_placed (entries : List (SegmentEntry α)) :
    movingJoints (entries.map fun e => e.placed (place e)) = movingJoints entries := by
  unfold movingJoints
  rw [List.filter_map, List.map_map]
  rfl

end SegmentEntry

theorem Config.IsRun.placed {c : Config α} {run : List (SegmentEntry α)} (h : c.IsRun run)
    (place : SegmentEntry α → Vec3 α × Vec3 α) :
    (c.placed place).IsRun (run.map fun e => e.placed (place e)) := by
  obtain ⟨hne, htip, before, after, hsegments, hbase⟩ := h
  refine ⟨fun hnil => hne (List.map_eq_nil_iff.mp hnil), ?_,
    before.map fun e => e.placed (place e), after.map fun e => e.placed (place e), ?_, ?_⟩
  · rw [SegmentEntry.lastFrame_placed]
    exact htip
  · rw [← List.map_append, ← List.map_append, ← hsegments]
    rfl
  · rw [SegmentEntry.lastFrame_placed]
    exact hbase

variable [Scalar α]

theorem SegmentEntry.origin_of_accepted {e : SegmentEntry α} {t : Segment α}
    (h : e.toSegment.Accepted t) :
    t.origin = .ofXyzRpy e.xyz e.rpy ∧ t.isActuated = e.kind.isActuated :=
  ⟨congrArg Segment.origin (Chain.eq_of_accepted h), (Chain.joint_of_accepted h).2⟩

theorem SegmentEntry.axis_of_accepted {e : SegmentEntry α} {t : Segment α}
    (h : e.toSegment.Accepted t) (ha : e.kind.isActuated = true) :
    ¬ e.axis.norm < Chain.minimalAxis ∧ Scalar.isFinite e.axis.norm = true ∧
      t.axis = e.axis.divide e.axis.norm := by
  have haxis : e.toSegment.axis = e.axis := if_pos ha
  unfold Segment.Accepted at h
  rw [if_pos (show e.toSegment.isActuated = true from ha)] at h
  obtain ⟨hlong, hfinite, -, rfl⟩ := Chain.normalized?_eq_ok h
  rw [haxis] at hlong hfinite
  refine ⟨hlong, hfinite, ?_⟩
  rw [← haxis]

namespace Config

/-- **No placement is refused.** -/
theorem exists_chain?_placed {c : Config α} {chain : Chain α} (h : c.chain? = .ok chain)
    (place : SegmentEntry α → Vec3 α × Vec3 α) :
    ∃ chain', (c.placed place).chain? = .ok chain' := by
  obtain ⟨hvalid, hframes, hnames, hall, -, run, hrun, hjoints, -⟩ := chain?_eq_ok_iff.mp h
  have hall' : ∀ s ∈ (c.placed place).segments, ∃ t, s.toSegment.Accepted t := by
    refine List.forall_mem_map.mpr fun e he => ?_
    obtain ⟨t, ht⟩ := hall e he
    exact ⟨_, ht.withOrigin (.ofXyzRpy (place e).1 (place e).2)⟩
  have hrun' := hrun.placed place
  obtain ⟨-, -, before, after, hsegments, -⟩ := id hrun'
  obtain ⟨ts, hts⟩ := exists_forall₂_iff.mpr fun e he => hall' e (by
    rw [hsegments]
    exact List.mem_append_left _ (List.mem_append_right _ he))
  refine ⟨⟨c.baseFrame, ts⟩, chain?_eq_ok_iff.mpr ⟨?_, ?_, ?_, hall', rfl, _, hrun', ?_,
    List.forall₂_map_left_iff.mpr hts⟩⟩
  · rw [validate?_eq_ok_iff] at hvalid ⊢
    obtain ⟨hbase, htip, hlisted, hkind, hne, hrest⟩ := hvalid
    exact ⟨hbase, htip, hlisted, hkind, fun hnil => hne (List.map_eq_nil_iff.mp hnil), hrest⟩
  · have hlinks : (c.placed place).segments.map SegmentEntry.link =
        c.segments.map SegmentEntry.link := List.map_map
    rw [hlinks]
    exact hframes
  · rw [placed, SegmentEntry.movingJoints_placed]
    exact hnames
  · rw [SegmentEntry.movingJoints_placed]
    exact hjoints

end Config

end Placed

/-! ## what is finite -/

/-- The numbers of a placement are finite. -/
structure Pose.IsFinite (a : Pose Float) : Prop where
  rotation : a.rotation.IsFinite
  displacement : a.displacement.IsFinite

/-- All numbers of a segment that poses and Jacobians are made of are finite. The axis of a fixed
joint is not among them. -/
structure Segment.IsFinite (s : Segment Float) : Prop where
  origin : s.origin.IsFinite
  axis : s.isActuated = true → s.axis.IsFinite

namespace Config

section Trig

variable {sin cos : Float → Float}

theorem isFinite_ofXyzRpy_iff (hsin : IsTrig sin) (hcos : IsTrig cos) (xyz rpy : Vec3 Float) :
    letI := withTrig sin cos
    (Pose.ofXyzRpy xyz rpy).IsFinite ↔ xyz.IsFinite ∧ rpy.IsFinite := by
  have hrotation := Rotation.isFinite_ofRollPitchYaw_iff hsin hcos rpy
  exact ⟨fun h => ⟨h.displacement, hrotation.mp h.rotation⟩,
    fun h => ⟨hrotation.mpr h.2, h.1⟩⟩

theorem isFinite_of_accepted {e : SegmentEntry Float} {t : Segment Float} :
    letI := withTrig sin cos
    e.toSegment.Accepted t → e.kind.isActuated = true → e.axis.IsFinite ∧ t.axis.IsFinite := by
  let := withTrig sin cos
  intro h ha
  obtain ⟨hlong, hfinite, haxis⟩ := SegmentEntry.axis_of_accepted h ha
  rw [haxis]
  exact ⟨Vec3.isFinite_of_norm hfinite, Vec3.isFinite_divide hfinite hlong⟩

/-- **The geometry of a chain is finite exactly where its joints are placed at finite numbers.** The
axes of moving joints are finite in every chain that is accepted, and they were given as finite
numbers; everything else is taken over, and would be accepted with any other numbers. -/
theorem geometry_is_finite_iff (hsin : IsTrig sin) (hcos : IsTrig cos) (c : Config Float)
    (chain : Chain Float) (run : List (SegmentEntry Float)) :
    letI := withTrig sin cos
    c.chain? = .ok chain → c.IsRun run →
      (∀ e ∈ run, e.kind.isActuated = true → e.axis.IsFinite) ∧
      (∀ s ∈ chain.actuated, s.axis.IsFinite) ∧
      ((∀ s ∈ chain.segments, s.IsFinite) ↔ ∀ e ∈ run, e.xyz.IsFinite ∧ e.rpy.IsFinite) ∧
      ∀ place, ∃ chain', (c.placed place).chain? = .ok chain' := by
  let := withTrig sin cos
  intro h hrun
  have haccepted := List.forall₂_map_left_iff.mp (accepted_of_isRun h hrun)
  refine ⟨fun e he ha => ?_, fun s hs => ?_, ⟨fun hchain e he => ?_, fun hentries s hs => ?_⟩,
    exists_chain?_placed h⟩
  · obtain ⟨t, -, ht⟩ := exists_of_forall₂ haccepted he
    exact (isFinite_of_accepted ht ha).1
  · obtain ⟨hs, ha⟩ := List.mem_filter.mp hs
    obtain ⟨e, -, he⟩ := exists_of_forall₂ haccepted.flip hs
    exact (isFinite_of_accepted he ((SegmentEntry.origin_of_accepted he).2 ▸ ha)).2
  · obtain ⟨t, ht, het⟩ := exists_of_forall₂ haccepted he
    have horigin := (hchain t ht).origin
    rw [(SegmentEntry.origin_of_accepted het).1] at horigin
    exact (isFinite_ofXyzRpy_iff hsin hcos e.xyz e.rpy).mp horigin
  · obtain ⟨e, he, hes⟩ := exists_of_forall₂ haccepted.flip hs
    obtain ⟨horigin, hactuated⟩ := SegmentEntry.origin_of_accepted hes
    refine ⟨?_, fun ha => (isFinite_of_accepted hes (hactuated ▸ ha)).2⟩
    rw [horigin]
    exact (isFinite_ofXyzRpy_iff hsin hcos e.xyz e.rpy).mpr (hentries e he)

end Trig

/-! ## the arm, in place and adrift -/

/-- A sine and a cosine that are right for an angle of zero. -/
def levelSine (x : Float) : Float := if x.isFinite then 0.0 else 0.0 / 0.0

def levelCosine (x : Float) : Float := if x.isFinite then 1.0 else 0.0 / 0.0

theorem isTrig_levelSine : IsTrig levelSine where
  bounded x hx := by
    unfold levelSine
    rw [if_pos hx]
    decide +kernel
  undefined x hx := by
    unfold levelSine
    rw [if_neg (by simp [hx])]
    rfl

theorem isTrig_levelCosine : IsTrig levelCosine where
  bounded x hx := by
    unfold levelCosine
    rw [if_pos hx]
    decide +kernel
  undefined x hx := by
    unfold levelCosine
    rw [if_neg (by simp [hx])]
    rfl

theorem isRun_arm : Sample.arm.IsRun Sample.arm.segments :=
  ⟨List.cons_ne_nil _ _, rfl, [], [], (List.append_nil _).symm, rfl⟩

theorem isFinite_arm : ∀ e ∈ Sample.arm.segments, e.xyz.IsFinite ∧ e.rpy.IsFinite := by
  have hzero : (Vec3.zero : Vec3 Float).IsFinite := ⟨rfl, rfl, rfl⟩
  have hone : (⟨1.0, 0.0, 0.0⟩ : Vec3 Float).IsFinite := ⟨rfl, rfl, rfl⟩
  simp only [Sample.arm, List.forall_mem_cons]
  exact ⟨⟨hzero, hzero⟩, ⟨hzero, hzero⟩, ⟨hone, hzero⟩, List.forall_mem_nil _⟩

/-- The chain of the arm is finite. -/
theorem arm_chain_is_finite :
    letI := withTrig levelSine levelCosine
    ∃ chain, Sample.arm.chain? = .ok chain ∧ ∀ s ∈ chain.segments, s.IsFinite := by
  let := withTrig levelSine levelCosine
  obtain ⟨chain, hchain⟩ : ∃ chain, Sample.arm.chain? = .ok chain :=
    exists_ok_of_isOk (by decide +kernel)
  obtain ⟨-, -, hfinite, -⟩ := geometry_is_finite_iff isTrig_levelSine isTrig_levelCosine
    Sample.arm chain Sample.arm.segments hchain isRun_arm
  exact ⟨chain, hchain, hfinite.mpr isFinite_arm⟩

/-- The arm with a lift that stands nowhere. -/
def adriftArm : Config Float :=
  Sample.arm.placed fun e =>
    if e.joint = "lift" then (⟨0.0 / 0.0, 0.0, 0.0⟩, .zero) else (e.xyz, e.rpy)

/-- Acceptance is not enough. -/
theorem acceptance_is_not_finite :
    ¬ ∀ (c : Config Float) (chain : Chain Float), c.chain? = .ok chain →
      ∀ s ∈ chain.segments, s.IsFinite := by
  intro h
  obtain ⟨chain, hchain⟩ : ∃ chain, adriftArm.chain? = .ok chain :=
    exists_ok_of_isOk (by decide +kernel)
  have haccepted := List.forall₂_map_left_iff.mp
    (accepted_of_isRun hchain (isRun_arm.placed _))
  obtain ⟨t, ht, het⟩ := exists_of_forall₂ haccepted List.mem_cons_self
  have hx := (h adriftArm chain hchain t ht).origin.displacement.x
  rw [(SegmentEntry.origin_of_accepted het).1] at hx
  exact absurd hx (by decide +kernel)

end Config

end ArmServo
