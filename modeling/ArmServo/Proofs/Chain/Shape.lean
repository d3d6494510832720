import ArmServo.Proofs.Chain.Acceptance
import ArmServo.Proofs.Chain.Columns

/-!
# Chains as they are made

A chain is accepted from a description or cut out of another chain. Cutting does not test anything
again: the frames of a run are some of those of the chain, in a row (`frames_run`), and so they are
still all different. From that follows what the queries of a chain tell, however often it has been cut.

Main statement: `Obtained.shape`.
-/

namespace ArmServo.Chain

variable {α : Type}

/-! ## frames of a run -/

theorem length_frames (c : Chain α) : c.frames.length = c.segments.length + 1 := by
  unfold frames
  rw [List.length_cons, List.length_map]

/-- **The frames of a run** are those of the chain, from the first frame of the run on. -/
theorem frames_run {c : Chain α} {i : Nat} {base : String} (h : c.frames[i]? = some base) (n : Nat) :
    frames ⟨base, (c.segments.drop i).take n⟩ = (c.frames.drop i).take (n + 1) := by
  obtain ⟨hi, hbase⟩ := List.getElem?_eq_some_iff.mp h
  rw [List.drop_eq_getElem_cons hi, hbase, List.take_succ_cons]
  unfold frames
  rw [List.map_take, List.map_drop, List.drop_succ_cons]

theorem nodup_frames_run {c : Chain α} (hc : c.frames.Nodup) {i : Nat} {base : String}
    (h : c.frames[i]? = some base) (n : Nat) :
    (frames ⟨base, (c.segments.drop i).take n⟩).Nodup := by
  rw [frames_run h]
  exact ((List.take_sublist _ _).trans (List.drop_sublist _ _)).nodup hc

theorem dof_eq_countP (c : Chain α) : c.dof = c.segments.countP Segment.isActuated :=
  List.countP_eq_length_filter.symm

theorem frameIndex?_eq_none_iff {c : Chain α} {frame : String} :
    c.frameIndex? frame = none ↔ frame ∉ c.frames := by
  unfold frameIndex?
  rw [List.findIdx?_eq_none_iff]
  constructor
  · exact fun h hmem => by simpa using h frame hmem
  · intro h x hx
    exact beq_false_of_ne fun he => h (he ▸ hx)

theorem getElem?_of_frameIndex? {c : Chain α} {frame : String} {i : Nat}
    (h : c.frameIndex? frame = some i) : c.frames[i]? = some frame := by
  obtain ⟨hi, he, -⟩ := List.findIdx?_eq_some_iff_getElem.mp h
  rw [List.getElem?_eq_getElem hi, beq_iff_eq.mp he]

theorem run_of_between? {c d : Chain α} {base tip : String} (h : c.between? base tip = .ok d) :
    ∃ i j, c.frames[i]? = some base ∧ c.frames[j]? = some tip ∧ i < j ∧
      d = ⟨base, (c.segments.drop i).take (j - i)⟩ := by
  obtain ⟨i, j, hi, hj, hlt, rfl⟩ := between?_eq_ok_iff.mp h
  exact ⟨i, j, getElem?_of_frameIndex? hi, getElem?_of_frameIndex? hj, hlt, rfl⟩

variable [Scalar α]

/-! ## what cutting keeps -/

/-- A chain that has been accepted from a description, or cut out of one. -/
inductive Obtained : Chain α → Prop
  | ofSegments {base : String} {segments : List (Segment α)} {c : Chain α}
    (h : ofSegments? base segments = .ok c) : Obtained c
  | between {c d : Chain α} {base tip : String} (hc : Obtained c) (h : c.between? base tip = .ok d) :
    Obtained d

/-- There are segments, no two frames have the same name, and the limits of what moves are valid. -/
structure WellFormed (c : Chain α) : Prop where
  segments : c.segments ≠ []
  frames : c.frames.Nodup
  limits : ∀ s ∈ c.actuated, s.limits.isValid = true

theorem wellFormed_of_ofSegments? {base : String} {segments : List (Segment α)} {c : Chain α}
    (h : ofSegments? base segments = .ok c) : c.WellFormed := by
  obtain ⟨hne, hframes, -, rfl, haccepted⟩ := ofSegments?_eq_ok_iff.mp h
  have hlinks := map_link_of_accepted haccepted
  constructor
  case segments =>
    intro hnil
    rw [hnil] at hlinks
    exact hne (List.map_eq_nil_iff.mp hlinks.symm)
  case frames =>
    unfold Chain.frames
    rwa [hlinks]
  case limits =>
    intro t ht
    obtain ⟨hmem, hactuated⟩ := List.mem_filter.mp ht
    obtain ⟨s, -, hs⟩ := mem_of_ofSegments? h hmem
    exact isValid_of_accepted hs hactuated

theorem WellFormed.between? {c d : Chain α} (hc : c.WellFormed) {base tip : String}
    (h : c.between? base tip = .ok d) : d.WellFormed := by
  have hmem := mem_of_between? h
  obtain ⟨i, j, hi, hj, hlt, rfl⟩ := run_of_between? h
  constructor
  case segments =>
    have hlength := length_frames c
    obtain ⟨hbound, -⟩ := List.getElem?_eq_some_iff.mp hj
    rw [← List.length_pos_iff, List.length_take, List.length_drop]
    omega
  case frames => exact nodup_frames_run hc.frames hi _
  case limits =>
    intro s hs
    obtain ⟨hrun, hactuated⟩ := List.mem_filter.mp hs
    exact hc.limits s (List.mem_filter.mpr ⟨hmem s hrun, hactuated⟩)

/-- The induction is on the cuts: none of them tests anything, and all of them keep this. -/
theorem Obtained.wellFormed {c : Chain α} (hc : c.Obtained) : c.WellFormed := by
  induction hc with
  | ofSegments h => exact wellFormed_of_ofSegments? h
  | between _ h ih => exact ih.between? h

/-! ## poses by name -/

theorem tipPose?_eq_ok {c : Chain α} {q : List α} (hq : q.length = c.dof) :
    c.tipPose? q = .ok (walk .one c.segments q) := by
  unfold tipPose? poseAt
  rw [checkDimension_eq_ok.mpr hq, List.take_length]
  rfl

theorem pose?_eq_ok {c : Chain α} {q : List α} {frame : String} {i : Nat} (hq : q.length = c.dof)
    (hi : c.frameIndex? frame = some i) :
    c.pose? q frame = .ok (walk .one (c.segments.take i) q) := by
  unfold pose?
  rw [checkDimension_eq_ok.mpr hq, hi]
  rfl

namespace WellFormed

variable {c : Chain α}

theorem frameIndex?_base (hc : c.WellFormed) : c.frameIndex? c.base = some 0 :=
  (frameIndex?_eq_some_iff hc.frames).mpr rfl

theorem frameIndex?_tip (hc : c.WellFormed) : c.frameIndex? c.tip = some c.segments.length := by
  rw [frameIndex?_eq_some_iff hc.frames, frames_getElem?, List.take_length]
  exact ⟨Nat.le_refl _, rfl⟩

theorem between?_base_tip (hc : c.WellFormed) : c.between? c.base c.tip = .ok c := by
  refine between?_eq_ok_iff.mpr
    ⟨0, _, hc.frameIndex?_base, hc.frameIndex?_tip, List.length_pos_iff.mpr hc.segments, ?_⟩
  rw [List.drop_zero, Nat.sub_zero, List.take_length]

end WellFormed

/-- What the queries of a chain tell. Number, names and limits of the moving joints are read off the
segments whenever they are asked for. -/
structure Shape (c : Chain α) : Prop where
  segments : c.segments ≠ []
  dof : c.dof = c.segments.countP Segment.isActuated
  jointNames : c.jointNames.length = c.dof
  limits : c.limits.length = c.dof
  /-- No lower limit is above the upper one. -/
  range : ∀ lower upper, .range lower upper ∈ c.limits → lower ≤ upper
  frames : c.frames.Nodup
  /-- A frame is found where it is. -/
  found : ∀ k frame, c.frames[k]? = some frame → c.frameIndex? frame = some k
  /-- Nothing else is found. -/
  unknown : ∀ frame, frame ∉ c.frames → c.frameIndex? frame = none
  /-- The tip has a pose, also by its name. -/
  tip : ∀ q, q.length = c.dof → ∃ p, c.tipPose? q = .ok p ∧ c.pose? q c.tip = .ok p
  /-- The base does not move. -/
  base : ∀ q, q.length = c.dof → c.pose? q c.base = .ok .one

theorem WellFormed.shape {c : Chain α} (hc : c.WellFormed) : c.Shape where
  segments := hc.segments
  dof := c.dof_eq_countP
  jointNames := List.length_map _
  limits := List.length_map _
  range := by
    intro lower upper hmem
    obtain ⟨s, hs, he⟩ := List.mem_map.mp hmem
    have hvalid := hc.limits s hs
    rw [he] at hvalid
    exact of_decide_eq_true hvalid
  frames := hc.frames
  found _ _ := (frameIndex?_eq_some_iff hc.frames).mpr
  unknown _ := frameIndex?_eq_none_iff.mpr
  tip q hq := by
    refine ⟨_, tipPose?_eq_ok hq, ?_⟩
    rw [pose?_eq_ok hq hc.frameIndex?_tip, List.take_length]
  base q hq := pose?_eq_ok hq hc.frameIndex?_base

/-- **Every chain has its shape**, however often it has been cut. -/
theorem Obtained.shape {c : Chain α} (hc : c.Obtained) : c.Shape := hc.wellFormed.shape

end ArmServo.Chain
