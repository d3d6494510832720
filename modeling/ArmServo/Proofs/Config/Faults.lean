import ArmServo.Proofs.Chain.Runs
import ArmServo.Proofs.Config.Acceptance

/-!
# Why a configuration has no chain

Validation refuses parameters; what else can be wrong before the joints are compared lies in the
description, or in the two frames between which the chain is to run. These faults are told in the
order in which they are found.

Main statements: `isConfiguration_of_validate?`, `chain?_eq_error_iff`, `run?_eq_error_iff`.
-/

namespace ArmServo

/-! ## cutting out a run -/

namespace Chain

variable {α : Type}

/-- **Why nothing can be cut out** between two frames, given all frames of a chain. -/
inductive CutFault (frames : List String) (base tip : String) : ChainError α → Prop
  | noBase (hbase : base ∉ frames) : CutFault frames base tip (.frameNotFound base)
  | noTip (hbase : base ∈ frames) (htip : tip ∉ frames) :
    CutFault frames base tip (.frameNotFound tip)
  | empty (hbase : base ∈ frames) (hsame : tip = base) : CutFault frames base tip .emptyChain
  | backwards {i j : Nat} (hi : frames[i]? = some base) (hj : frames[j]? = some tip) (hlt : j < i) :
    CutFault frames base tip (.tipBeforeBase base tip)

theorem between?_eq_error_iff {c : Chain α} (hc : c.frames.Nodup) {base tip : String}
    {e : ChainError α} : c.between? base tip = .error e ↔ CutFault c.frames base tip e := by
  have hindex : ∀ {frame i}, c.frames[i]? = some frame → c.frameIndex? frame = some i :=
    (frameIndex?_eq_some_iff hc).mpr
  constructor
  · intro h
    by_cases hbase : base ∈ c.frames
    · by_cases htip : tip ∈ c.frames
      · obtain ⟨i, hi⟩ := List.getElem?_of_mem hbase
        obtain ⟨j, hj⟩ := List.getElem?_of_mem htip
        rw [between?_of_frameIndex? (hindex hi) (hindex hj)] at h
        by_cases hsame : j = i
        · rw [if_pos hsame] at h
          cases h
          rw [hsame, hi] at hj
          exact .empty hbase (Option.some.inj hj).symm
        · rw [if_neg hsame] at h
          by_cases hlt : j < i
          · rw [if_pos hlt] at h
            cases h
            exact .backwards hi hj hlt
          · rw [if_neg hlt] at h
            cases h
      · rw [between?_of_mem_of_not_mem hbase htip] at h
        cases h
        exact .noTip hbase htip
    · rw [between?_of_not_mem hbase] at h
      cases h
      exact .noBase hbase
  · intro h
    cases h with
    | noBase hbase => exact between?_of_not_mem hbase tip
    | noTip hbase htip => exact between?_of_mem_of_not_mem hbase htip
    | empty hbase hsame =>
      obtain ⟨i, hi⟩ := List.getElem?_of_mem hbase
      rw [hsame, between?_of_frameIndex? (hindex hi) (hindex hi), if_pos rfl]
    | backwards hi hj hlt =>
      rw [between?_of_frameIndex? (hindex hi) (hindex hj), if_neg (Nat.ne_of_lt hlt), if_pos hlt]

end Chain

namespace Config

section Refusals

variable {α : Type} [Scalar α]

/-! ## parameters -/

theorem isConfiguration_of_period? {c : Config α} {e : ControlError α} (h : c.period? = .error e) :
    e.isConfiguration = true := by
  unfold period? at h
  split at h
  · split at h
    · cases h
    · cases h
      rfl
  · cases h
    rfl

/-- **Validation refuses what lies in the configuration**, and says so. -/
theorem isConfiguration_of_validate? {c : Config α} {e : ControlError α}
    (h : c.validate? = .error e) : e.isConfiguration = true := by
  unfold validate? at h
  simp only [guard_eq_error, bind_eq_error] at h
  rcases h with ⟨-, rfl⟩ | ⟨-, ⟨-, rfl⟩ | ⟨-, ⟨-, rfl⟩ | ⟨-, ⟨-, rfl⟩ | ⟨-, ⟨-, rfl⟩ |
    ⟨-, hperiod | ⟨-, -, haxis⟩⟩⟩⟩⟩⟩
  case inr.inr.inr.inr.inr.inl => exact isConfiguration_of_period? hperiod
  case inr.inr.inr.inr.inr.inr =>
    split at haxis
    · cases haxis
      rfl
    · cases haxis
  all_goals rfl

/-! ## the chain -/

/-- The run from base to tip that a description has, whatever joints are listed. -/
def run? (c : Config α) : Except (ChainError α) (Chain α) :=
  c.description? >>= (·.between? c.baseFrame c.tipFrame)

/-- **Why a configuration has no chain**: a parameter, the run from base to tip, or the list of its
joints. -/
theorem chain?_eq_error_iff {c : Config α} {e : ControlError α} :
    c.chain? = .error e ↔ c.validate? = .error e ∨ c.validate? = .ok () ∧
      ((∃ k, c.run? = .error k ∧ e = .kinematics k) ∨
        ∃ chain, c.run? = .ok chain ∧ chain.jointNames ≠ c.joints ∧
          e = .configuration (.jointMismatch c.joints c.baseFrame c.tipFrame chain.jointNames)) := by
  unfold chain?
  rw [bind_eq_error, show c.description? >>= (·.between? c.baseFrame c.tipFrame) = c.run? from rfl]
  refine or_congr_right ?_
  cases hr : c.run? with
  | error k =>
    constructor
    · rintro ⟨_, hv, h⟩
      cases h
      exact ⟨hv, .inl ⟨k, rfl, rfl⟩⟩
    · rintro ⟨hv, ⟨_, hk, rfl⟩ | ⟨_, hk, -⟩⟩
      · cases hk
        exact ⟨(), hv, rfl⟩
      · cases hk
  | ok chain =>
    by_cases hj : chain.jointNames = c.joints
    · simp only [if_pos hj]
      constructor
      · rintro ⟨_, -, h⟩
        cases h
      · rintro ⟨-, ⟨_, hk, -⟩ | ⟨_, hk, hne, -⟩⟩
        · cases hk
        · cases hk
          exact absurd hj hne
    · simp only [if_neg hj]
      constructor
      · rintro ⟨_, hv, h⟩
        cases h
        exact ⟨hv, .inr ⟨chain, rfl, hj, rfl⟩⟩
      · rintro ⟨hv, ⟨_, hk, -⟩ | ⟨_, hk, -, rfl⟩⟩
        · cases hk
        · cases hk
          exact ⟨(), hv, rfl⟩

end Refusals

/-! ## the run from base to tip -/

/-- All frames of a description, its root first. -/
def frames {α : Type} (c : Config α) : List String := c.root :: c.segments.map SegmentEntry.link

/-- **What keeps a description from leading from base to tip**: the first entry that does not fit
what stands before it, with the first of its faults, or else the two frames. -/
inductive RunFault (c : Config Float) : ChainError Float → Prop
  | entry {before after : List (SegmentEntry Float)} {s : SegmentEntry Float} {k : ChainError Float}
    (hsplit : c.segments = before ++ s :: after)
    (hbefore : Chain.Faultless c.root (before.map SegmentEntry.toSegment))
    (hs : s.toSegment.Fault (c.root :: before.map SegmentEntry.link)
      (SegmentEntry.movingJoints before) k) : RunFault c k
  | cut {k : ChainError Float}
    (hall : Chain.Faultless c.root (c.segments.map SegmentEntry.toSegment))
    (hk : Chain.CutFault c.frames c.baseFrame c.tipFrame k) : RunFault c k

theorem description?_eq_error_iff {c : Config Float} (hne : c.segments ≠ []) {k : ChainError Float} :
    c.description? = .error k ↔ ∃ before s after, c.segments = before ++ s :: after ∧
      Chain.Faultless c.root (before.map SegmentEntry.toSegment) ∧
      s.toSegment.Fault (c.root :: before.map SegmentEntry.link)
        (SegmentEntry.movingJoints before) k := by
  unfold description?
  rw [Chain.ofSegments?_eq_error_iff, List.map_eq_nil_iff]
  simp only [hne, false_and, false_or]
  constructor
  · rintro ⟨_, _, _, hsplit, hbefore, hs⟩
    obtain ⟨before, rest, hc, rfl, hrest⟩ := List.map_eq_append_iff.mp hsplit
    obtain ⟨s, after, rfl, rfl, rfl⟩ := List.map_eq_cons_iff.mp hrest
    rw [map_link_map_toSegment, movingJoints_map_toSegment] at hs
    exact ⟨before, s, after, hc, hbefore, hs⟩
  · rintro ⟨before, s, after, hc, hbefore, hs⟩
    refine ⟨before.map SegmentEntry.toSegment, s.toSegment, after.map SegmentEntry.toSegment, ?_,
      hbefore, ?_⟩
    · rw [hc, List.map_append, List.map_cons]
    · rwa [map_link_map_toSegment, movingJoints_map_toSegment]

theorem exists_description?_iff {c : Config Float} (hne : c.segments ≠ []) :
    (∃ full, c.description? = .ok full) ↔
      Chain.Faultless c.root (c.segments.map SegmentEntry.toSegment) := by
  refine Chain.exists_ofSegments?_iff.trans (and_iff_right ?_)
  exact fun h => hne (List.map_eq_nil_iff.mp h)

theorem frames_of_description? {c : Config Float} {full : Chain Float}
    (h : c.description? = .ok full) : full.frames = c.frames ∧ full.frames.Nodup := by
  obtain ⟨-, hframes, -, hroot, hsegments⟩ := description?_eq_ok_iff.mp h
  have hsame : full.frames = c.frames := by
    unfold Chain.frames frames
    rw [Chain.map_link_of_accepted hsegments, map_link_map_toSegment, hroot]
  rw [hsame]
  exact ⟨rfl, hframes⟩

/-- **Why a description has no run from base to tip.** -/
theorem run?_eq_error_iff {c : Config Float} (hne : c.segments ≠ []) {k : ChainError Float} :
    c.run? = .error k ↔ c.RunFault k := by
  have hcut : ∀ {full}, c.description? = .ok full →
      (full.between? c.baseFrame c.tipFrame = .error k ↔
        Chain.CutFault c.frames c.baseFrame c.tipFrame k) := by
    intro full hfull
    obtain ⟨hframes, hnodup⟩ := frames_of_description? hfull
    rw [Chain.between?_eq_error_iff hnodup, hframes]
  unfold run?
  rw [bind_eq_error, description?_eq_error_iff hne]
  constructor
  · rintro (⟨before, s, after, hsplit, hbefore, hs⟩ | ⟨full, hfull, hk⟩)
    · exact .entry hsplit hbefore hs
    · exact .cut ((exists_description?_iff hne).mp ⟨full, hfull⟩) ((hcut hfull).mp hk)
  · rintro (⟨hsplit, hbefore, hs⟩ | ⟨hall, hk⟩)
    · exact .inl ⟨_, _, _, hsplit, hbefore, hs⟩
    · obtain ⟨full, hfull⟩ := (exists_description?_iff hne).mpr hall
      exact .inr ⟨full, hfull, (hcut hfull).mpr hk⟩

end Config

end ArmServo
