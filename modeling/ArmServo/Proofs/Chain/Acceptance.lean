import ArmServo.Proofs.Chain.Accepted
import ArmServo.Proofs.Related
import Mathlib.Data.List.Nodup

/-!
# Which descriptions are accepted

A description is accepted exactly if its frames are all different, its moving joints have different
names, and the axis and the limits of each of them pass their tests. A run is cut out exactly where
the segments of a chain split at the two frames, in this order.

Main statements: `accept_eq_ok_iff`, `between?_eq_ok_iff_run`.
-/

namespace ArmServo

variable {α : Type}

/-- The names are all different, and none of them is taken. -/
def Fresh (taken names : List String) : Prop := names.Nodup ∧ ∀ n ∈ names, n ∉ taken

theorem fresh_cons {taken names : List String} {n : String} :
    Fresh taken (n :: names) ↔ n ∉ taken ∧ Fresh (n :: taken) names := by
  unfold Fresh
  rw [List.nodup_cons, List.forall_mem_cons]
  simp only [List.mem_cons, not_or]
  constructor
  · rintro ⟨⟨hn, hnames⟩, hfree, htaken⟩
    exact ⟨hfree, hnames, fun m hm => ⟨fun he => hn (he ▸ hm), htaken m hm⟩⟩
  · rintro ⟨hfree, hnames, htaken⟩
    exact ⟨⟨fun hn => (htaken n hn).1 rfl, hnames⟩, hfree, fun m hm => (htaken m hm).2⟩

theorem fresh_singleton {taken : String} {names : List String} :
    Fresh [taken] names ↔ (taken :: names).Nodup := by
  simp only [Fresh, List.nodup_cons, List.mem_singleton]
  constructor
  · rintro ⟨hnames, htaken⟩
    exact ⟨fun h => htaken taken h rfl, hnames⟩
  · rintro ⟨htaken, hnames⟩
    exact ⟨hnames, fun n hn he => htaken (he ▸ hn)⟩

theorem fresh_nil {names : List String} : Fresh [] names ↔ names.Nodup := by
  simp [Fresh]

/-- The names of the joints that move, in order. -/
def Segment.movingJoints (segments : List (Segment α)) : List String :=
  (segments.filter Segment.isActuated).map Segment.joint

namespace Chain

section Accept

variable [Scalar α]

/-! ## accepting a description -/

theorem accept_cons (frames joints : List String) (s : Segment α) (rest : List (Segment α)) :
    accept frames joints (s :: rest) =
      if frames.contains s.link then .error (.duplicateFrame s.link)
      else if s.isActuated then
        if joints.contains s.joint then .error (.duplicateJoint s.joint)
        else match normalized? s with
          | .ok t => (accept (s.link :: frames) (s.joint :: joints) rest).map (t :: ·)
          | .error e => .error e
      else (accept (s.link :: frames) joints rest).map (s :: ·) := by
  rw [accept]
  split
  · rfl
  · split
    · split
      · rfl
      · cases normalized? s with
        | error e => rfl
        | ok t => cases accept (s.link :: frames) (s.joint :: joints) rest <;> rfl
    · cases accept (s.link :: frames) joints rest <;> rfl

theorem accept_of_accepted {frames joints : List String} {s t : Segment α}
    (hf : s.link ∉ frames) (hj : s.isActuated = true → s.joint ∉ joints) (ht : s.Accepted t)
    (rest : List (Segment α)) :
    accept frames joints (s :: rest) = (accept (s.link :: frames)
      (if s.isActuated then s.joint :: joints else joints) rest).map (t :: ·) := by
  have hframe : frames.contains s.link = false := by simpa using hf
  unfold Segment.Accepted at ht
  by_cases ha : s.isActuated = true
  · have hjoint : joints.contains s.joint = false := by simpa using hj ha
    rw [if_pos ha] at ht
    simp only [accept_cons, hframe, hjoint, ha, ht, Bool.false_eq_true, if_false, if_true]
  · rw [if_neg ha] at ht
    simp only [accept_cons, hframe, ha, ht, Bool.false_eq_true, if_false]

/-- **What acceptance tests of the first entry, and what it does to it.** -/
theorem accept_cons_eq_ok_iff {frames joints : List String} {s : Segment α}
    {rest accepted : List (Segment α)} :
    accept frames joints (s :: rest) = .ok accepted ↔
      s.link ∉ frames ∧ (s.isActuated = true → s.joint ∉ joints) ∧
      ∃ t ts, s.Accepted t ∧ accepted = t :: ts ∧
        accept (s.link :: frames) (if s.isActuated then s.joint :: joints else joints) rest =
          .ok ts := by
  constructor
  · intro h
    unfold accept at h
    rw [guard_eq_ok, List.contains_iff_mem] at h
    obtain ⟨hf, h⟩ := h
    refine ⟨hf, ?_⟩
    dsimp only at h
    unfold Segment.Accepted
    by_cases ha : s.isActuated = true
    · rw [if_pos ha, guard_eq_ok, List.contains_iff_mem] at h
      obtain ⟨hj, h⟩ := h
      obtain ⟨t, ht, h⟩ := bind_eq_ok.mp h
      obtain ⟨ts, hts, h⟩ := bind_eq_ok.mp h
      cases h
      rw [if_pos ha]
      exact ⟨fun _ => hj, t, ts, by rw [if_pos ha, ht], rfl, hts⟩
    · rw [if_neg ha] at h
      obtain ⟨ts, hts, h⟩ := bind_eq_ok.mp h
      cases h
      rw [if_neg ha]
      exact ⟨fun h => absurd h ha, s, ts, by rw [if_neg ha], rfl, hts⟩
  · rintro ⟨hf, hj, t, ts, ht, rfl, hts⟩
    rw [accept_of_accepted hf hj ht, hts]
    rfl

theorem exists_normalized?_iff {s : Segment α} :
    (∃ t, normalized? s = .ok t) ↔ ¬ s.axis.norm < minimalAxis ∧
      Scalar.isFinite s.axis.norm = true ∧ s.limits.isValid = true := by
  constructor
  · rintro ⟨t, ht⟩
    obtain ⟨haxis, hfinite, hlimits, -⟩ := normalized?_eq_ok ht
    exact ⟨haxis, hfinite, hlimits⟩
  · rintro ⟨haxis, hfinite, hlimits⟩
    refine ⟨{ s with axis := s.axis.divide s.axis.norm }, ?_⟩
    unfold normalized?
    dsimp only
    rw [if_neg (by simp [haxis, hfinite])]
    cases hl : s.limits with
    | free => rfl
    | range lower upper =>
      rw [hl] at hlimits
      exact if_pos (of_decide_eq_true hlimits)

/-- **What is accepted, and what becomes of it.** -/
theorem accept_eq_ok_iff {frames joints : List String} {segments accepted : List (Segment α)} :
    accept frames joints segments = .ok accepted ↔
      Fresh frames (segments.map Segment.link) ∧ Fresh joints (Segment.movingJoints segments) ∧
        List.Forall₂ Segment.Accepted segments accepted := by
  induction segments generalizing frames joints accepted with
  | nil =>
    constructor
    · intro h
      cases h
      exact ⟨⟨List.nodup_nil, fun _ h => (nomatch h)⟩, ⟨List.nodup_nil, fun _ h => (nomatch h)⟩, .nil⟩
    · rintro ⟨-, -, h⟩
      cases h
      rfl
  | cons s rest ih =>
    rw [accept_cons_eq_ok_iff, List.map_cons, fresh_cons, List.forall₂_cons_left_iff]
    unfold Segment.movingJoints at ih ⊢
    by_cases ha : s.isActuated = true
    · rw [List.filter_cons_of_pos ha, List.map_cons, fresh_cons]
      simp only [ha, if_true, true_imp_iff, ih]
      constructor
      · rintro ⟨hf, hj, t, ts, ht, rfl, hframes, hjoints, hts⟩
        exact ⟨⟨hf, hframes⟩, ⟨hj, hjoints⟩, t, ts, ht, hts, rfl⟩
      · rintro ⟨⟨hf, hframes⟩, ⟨hj, hjoints⟩, t, ts, ht, hts, rfl⟩
        exact ⟨hf, hj, t, ts, ht, rfl, hframes, hjoints, hts⟩
    · rw [List.filter_cons_of_neg ha]
      simp only [ha, Bool.false_eq_true, if_false, false_imp_iff, true_and, ih]
      constructor
      · rintro ⟨hf, t, ts, ht, rfl, hframes, hjoints, hts⟩
        exact ⟨⟨hf, hframes⟩, hjoints, t, ts, ht, hts, rfl⟩
      · rintro ⟨⟨hf, hframes⟩, hjoints, t, ts, ht, hts, rfl⟩
        exact ⟨hf, t, ts, ht, rfl, hframes, hjoints, hts⟩

theorem ofSegments?_of_ne_nil {base : String} {segments : List (Segment α)} (h : segments ≠ []) :
    ofSegments? base segments = (accept [base] [] segments).map (⟨base, ·⟩) := by
  unfold ofSegments?
  rw [if_neg (by simpa using h)]
  cases accept [base] [] segments <;> rfl

theorem ofSegments?_eq_ok_iff {base : String} {segments : List (Segment α)} {c : Chain α} :
    ofSegments? base segments = .ok c ↔
      segments ≠ [] ∧ (base :: segments.map Segment.link).Nodup ∧
        (Segment.movingJoints segments).Nodup ∧ c.base = base ∧
        List.Forall₂ Segment.Accepted segments c.segments := by
  unfold ofSegments?
  by_cases he : segments.isEmpty = true
  · rw [if_pos he]
    exact ⟨fun h => (nomatch h), fun h => absurd (List.isEmpty_iff.mp he) h.1⟩
  · rw [if_neg he, bind_eq_ok]
    simp only [accept_eq_ok_iff, fresh_singleton, fresh_nil]
    constructor
    · rintro ⟨accepted, ⟨hframes, hjoints, ha⟩, h⟩
      cases h
      exact ⟨fun h => he (List.isEmpty_iff.mpr h), hframes, hjoints, rfl, ha⟩
    · rintro ⟨-, hframes, hjoints, rfl, ha⟩
      exact ⟨c.segments, ⟨hframes, hjoints, ha⟩, rfl⟩

theorem accepted_rightUnique : Relator.RightUnique (Segment.Accepted (α := α)) := by
  intro s t t' ht ht'
  unfold Segment.Accepted at ht ht'
  by_cases ha : s.isActuated = true
  · rw [if_pos ha] at ht ht'
    exact Except.ok.inj (ht.symm.trans ht')
  · rw [if_neg ha] at ht ht'
    exact ht.trans ht'.symm

theorem Accepted.unique {segments ts ts' : List (Segment α)}
    (h : List.Forall₂ Segment.Accepted segments ts)
    (h' : List.Forall₂ Segment.Accepted segments ts') : ts = ts' :=
  List.right_unique_forall₂' accepted_rightUnique h h'

theorem link_of_accepted {s t : Segment α} (h : s.Accepted t) : t.link = s.link := by
  rw [eq_of_accepted h]

theorem map_link_of_accepted {segments ts : List (Segment α)}
    (h : List.Forall₂ Segment.Accepted segments ts) :
    ts.map Segment.link = segments.map Segment.link :=
  (forall₂_map_eq_iff.mp (h.imp fun _ _ ht => (link_of_accepted ht).symm)).symm

theorem map_isActuated_of_accepted {segments ts : List (Segment α)}
    (h : List.Forall₂ Segment.Accepted segments ts) :
    ts.map Segment.isActuated = segments.map Segment.isActuated :=
  (forall₂_map_eq_iff.mp (h.imp fun _ _ ht => (joint_of_accepted ht).2.symm)).symm

theorem movingJoints_of_accepted {segments ts : List (Segment α)}
    (h : List.Forall₂ Segment.Accepted segments ts) :
    Segment.movingJoints ts = Segment.movingJoints segments := by
  unfold Segment.movingJoints
  induction h with
  | nil => rfl
  | @cons s t _ _ ht _ ih =>
    obtain ⟨hjoint, hact⟩ := joint_of_accepted ht
    by_cases ha : s.isActuated = true
    · rw [List.filter_cons_of_pos ha, List.filter_cons_of_pos (hact.trans ha), List.map_cons,
        List.map_cons, hjoint, ih]
    · rw [List.filter_cons_of_neg ha, List.filter_cons_of_neg (by rwa [hact]), ih]

theorem mem_of_ofSegments? {base : String} {segments : List (Segment α)} {c : Chain α}
    (h : ofSegments? base segments = .ok c) {t : Segment α} (ht : t ∈ c.segments) :
    ∃ s ∈ segments, s.Accepted t := by
  obtain ⟨-, -, -, -, haccepted⟩ := ofSegments?_eq_ok_iff.mp h
  exact exists_of_forall₂ haccepted.flip ht

theorem nodup_jointNames_of_ofSegments? {base : String} {segments : List (Segment α)} {c : Chain α}
    (h : ofSegments? base segments = .ok c) : c.jointNames.Nodup := by
  obtain ⟨-, -, hjoints, -, haccepted⟩ := ofSegments?_eq_ok_iff.mp h
  rwa [← movingJoints_of_accepted haccepted] at hjoints

end Accept

/-! ## runs of a chain -/

theorem tip_append {base frame : String} {before run : List (Segment α)} (h : run ≠ []) :
    tip ⟨base, before ++ run⟩ = tip ⟨frame, run⟩ := by
  unfold tip
  simp only [List.getLast?_append, List.getLast?_eq_some_getLast h, Option.some_or, Option.map_some,
    Option.getD_some]

theorem frames_getElem? {c : Chain α} {i : Nat} {frame : String} :
    c.frames[i]? = some frame ↔
      i ≤ c.segments.length ∧ tip ⟨c.base, c.segments.take i⟩ = frame := by
  unfold frames tip
  cases i with
  | zero => simp
  | succ i =>
    rw [List.getElem?_cons_succ, List.getElem?_map]
    by_cases hi : i < c.segments.length
    · simp only [List.getElem?_eq_getElem hi, List.take_add_one, List.getLast?_append]
      simp only [Option.map_some, Option.some.injEq, Option.toList_some, List.getLast?_singleton,
        Option.some_or, Option.getD_some, Nat.succ_le_of_lt hi, true_and]
    · rw [List.getElem?_eq_none (by omega)]
      exact ⟨nofun, fun h => absurd h.1 hi⟩

/-- In a chain without repeated frames a name stands for the one place that bears it. -/
theorem frameIndex?_eq_some_iff {c : Chain α} (hc : c.frames.Nodup) {frame : String} {i : Nat} :
    c.frameIndex? frame = some i ↔ c.frames[i]? = some frame := by
  unfold frameIndex?
  rw [List.findIdx?_eq_some_iff_getElem, List.getElem?_eq_some_iff]
  constructor
  · rintro ⟨hi, he, -⟩
    exact ⟨hi, by simpa using he⟩
  · rintro ⟨hi, he⟩
    refine ⟨hi, by simpa using he, fun j hj => ?_⟩
    intro hsame
    have hij := (List.Nodup.getElem_inj_iff hc).mp ((beq_iff_eq.mp hsame).trans he.symm)
    omega

theorem between?_eq_ok_iff {c d : Chain α} {base tip : String} :
    c.between? base tip = .ok d ↔ ∃ i j, c.frameIndex? base = some i ∧
      c.frameIndex? tip = some j ∧ i < j ∧ d = ⟨base, (c.segments.drop i).take (j - i)⟩ := by
  unfold between?
  cases hi : c.frameIndex? base with
  | none => simp [throw, throwThe, MonadExceptOf.throw]
  | some i =>
    cases hj : c.frameIndex? tip with
    | none => simp [throw, throwThe, MonadExceptOf.throw]
    | some j =>
      dsimp only
      by_cases hsame : j = i
      · rw [if_pos hsame]
        refine ⟨fun h => (nomatch h), ?_⟩
        rintro ⟨_, _, hi, hj, hlt, -⟩
        cases hi
        cases hj
        omega
      · rw [if_neg hsame]
        by_cases hlt : j < i
        · rw [if_pos hlt]
          refine ⟨fun h => (nomatch h), ?_⟩
          rintro ⟨_, _, hi, hj, hlt', -⟩
          cases hi
          cases hj
          omega
        · rw [if_neg hlt]
          constructor
          · intro h
            cases h
            exact ⟨i, j, rfl, rfl, by omega, rfl⟩
          · rintro ⟨_, _, hi, hj, -, rfl⟩
            cases hi
            cases hj
            rfl

theorem mem_of_between? {c d : Chain α} {base tip : String} (h : c.between? base tip = .ok d) :
    ∀ s ∈ d.segments, s ∈ c.segments := by
  obtain ⟨i, j, -, -, -, rfl⟩ := between?_eq_ok_iff.mp h
  exact fun s hs => List.mem_of_mem_drop (List.mem_of_mem_take hs)

theorem nodup_jointNames_of_between? {c d : Chain α} {base tip : String}
    (h : c.between? base tip = .ok d) (hc : c.jointNames.Nodup) : d.jointNames.Nodup := by
  obtain ⟨i, j, -, -, -, rfl⟩ := between?_eq_ok_iff.mp h
  have hrun : ((c.segments.drop i).take (j - i)).Sublist c.segments :=
    (List.take_sublist _ _).trans (List.drop_sublist _ _)
  exact ((hrun.filter _).map _).nodup hc

/-- **Where a run is cut out**: the segments split at the two frames. -/
theorem between?_eq_ok_iff_run {c d : Chain α} (hc : c.frames.Nodup) {base tip : String} :
    c.between? base tip = .ok d ↔ d.base = base ∧ d.tip = tip ∧ d.segments ≠ [] ∧
      ∃ before after, c.segments = before ++ d.segments ++ after ∧
        Chain.tip ⟨c.base, before⟩ = base := by
  simp only [between?_eq_ok_iff, frameIndex?_eq_some_iff hc, frames_getElem?]
  constructor
  · rintro ⟨i, j, ⟨hi, hbase⟩, ⟨hj, htip⟩, hlt, rfl⟩
    have hrun : (c.segments.drop i).take (j - i) ≠ [] := by
      rw [← List.length_pos_iff, List.length_take, List.length_drop]
      omega
    have htake : c.segments.take j = c.segments.take i ++ (c.segments.drop i).take (j - i) := by
      rw [← List.take_add, Nat.add_sub_cancel' (Nat.le_of_lt hlt)]
    refine ⟨rfl, ?_, hrun, c.segments.take i, c.segments.drop j, ?_, hbase⟩
    · rw [htake, tip_append hrun] at htip
      exact htip
    · rw [← htake, List.take_append_drop]
  · rintro ⟨rfl, htip, hrun, before, after, hsegments, hbase⟩
    have hlength := List.length_pos_iff.mpr hrun
    have hi : c.segments.take before.length = before := by
      rw [hsegments, List.append_assoc, List.take_left' rfl]
    have hj : c.segments.take (before.length + d.segments.length) = before ++ d.segments := by
      rw [hsegments, List.take_left' List.length_append]
    refine ⟨before.length, before.length + d.segments.length, ⟨?_, by rwa [hi]⟩, ⟨?_, ?_⟩,
      by omega, ?_⟩
    · rw [hsegments]
      simp only [List.length_append]
      omega
    · rw [hsegments]
      simp only [List.length_append]
      omega
    · rw [hj, tip_append hrun]
      exact htip
    · rw [hsegments, List.append_assoc, List.drop_left' rfl, Nat.add_sub_cancel_left,
        List.take_left' rfl]

end Chain

end ArmServo
