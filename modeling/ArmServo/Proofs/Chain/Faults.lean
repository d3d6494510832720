import ArmServo.Proofs.Chain.Acceptance
import ArmServo.Proofs.Chain.Limits
import ArmServo.Proofs.Scalar.Finite

/-!
# What is wrong with a description

A description without faults is accepted. Of any other the first entry that does not fit what stands
before it is reported, with the first of its faults: its frame, then, if its joint moves, the name of
the joint, its axis and its limits. Of a joint that does not move nothing else is looked at.

Main statements: `exists_ofSegments?_iff`, `ofSegments?_eq_error_iff`,
`ofSegments?_eq_error_iff_of_looksLike`.
-/

namespace ArmServo

open Binary64

/-! ## one entry -/

namespace Segment

/-- The axis has a finite length that does not count as zero. -/
def HasAxis (s : Segment Float) : Prop := s.axis.norm.isFinite = true ∧ 1e-9 ≤ s.axis.norm

theorem hasAxis_iff {s : Segment Float} :
    s.HasAxis ↔ ¬ s.axis.norm < Chain.minimalAxis ∧ Scalar.isFinite s.axis.norm = true := by
  have hminimal : (Chain.minimalAxis : Float) = 1e-9 := by decide +kernel
  rw [hminimal]
  constructor
  · exact fun ⟨hfinite, hlong⟩ => ⟨not_lt_of_le hlong, hfinite⟩
  · exact fun ⟨hlong, hfinite⟩ =>
      ⟨hfinite, le_of_not_lt (isNaN_of_isFinite hfinite) (by decide +kernel) hlong⟩

/-- What is asked of a joint that moves, whatever stands before it. -/
structure IsSound (s : Segment Float) : Prop where
  axis : s.HasAxis
  limits : s.limits.lower ≤ s.limits.upper

theorem exists_accepted_iff {s : Segment Float} :
    (∃ t, s.Accepted t) ↔ (s.isActuated = true → s.IsSound) := by
  unfold Accepted
  by_cases ha : s.isActuated = true
  · simp only [ha, if_true, Chain.exists_normalized?_iff, Limits.isValid_iff, ← and_assoc,
      ← hasAxis_iff, true_imp_iff]
    exact ⟨fun h => ⟨h.1, h.2⟩, fun h => ⟨h.axis, h.limits⟩⟩
  · simp only [if_neg ha, exists_eq, true_iff]
    exact fun h => absurd h ha

/-- **The first fault of an entry**, given the frames and the joints before it. -/
inductive Fault (frames joints : List String) (s : Segment Float) : ChainError Float → Prop
  | frame (hf : s.link ∈ frames) : Fault frames joints s (.duplicateFrame s.link)
  | joint (hf : s.link ∉ frames) (ha : s.isActuated = true) (hj : s.joint ∈ joints) :
    Fault frames joints s (.duplicateJoint s.joint)
  | axis (hf : s.link ∉ frames) (ha : s.isActuated = true) (hj : s.joint ∉ joints)
    (hx : ¬ s.HasAxis) : Fault frames joints s (.invalidAxis s.joint)
  | limits {lower upper : Float} (hf : s.link ∉ frames) (ha : s.isActuated = true)
    (hj : s.joint ∉ joints) (hx : s.HasAxis) (hl : s.limits = .range lower upper)
    (hle : ¬ lower ≤ upper) : Fault frames joints s (.invalidLimits s.joint lower upper)

theorem Fault.congr {frames frames' joints joints' : List String} {s : Segment Float}
    {e : ChainError Float} (h : s.Fault frames joints e) (hf : ∀ n, n ∈ frames ↔ n ∈ frames')
    (hj : ∀ n, n ∈ joints ↔ n ∈ joints') : s.Fault frames' joints' e := by
  cases h with
  | frame h => exact .frame ((hf _).mp h)
  | joint h ha h' => exact .joint (mt (hf _).mpr h) ha ((hj _).mp h')
  | axis h ha h' hx => exact .axis (mt (hf _).mpr h) ha (mt (hj _).mpr h') hx
  | limits h ha h' hx hl hle => exact .limits (mt (hf _).mpr h) ha (mt (hj _).mpr h') hx hl hle

/-- An entry has a fault, or it fits what stands before it. -/
theorem exists_fault_or (frames joints : List String) (s : Segment Float) :
    (∃ e, s.Fault frames joints e) ∨
      s.link ∉ frames ∧ (s.isActuated = true → s.joint ∉ joints) ∧ ∃ t, s.Accepted t := by
  by_cases hf : s.link ∈ frames
  · exact .inl ⟨_, .frame hf⟩
  by_cases ha : s.isActuated = true
  · by_cases hj : s.joint ∈ joints
    · exact .inl ⟨_, .joint hf ha hj⟩
    by_cases hx : s.HasAxis
    · by_cases hle : s.limits.lower ≤ s.limits.upper
      · exact .inr ⟨hf, fun _ => hj, exists_accepted_iff.mpr fun _ => ⟨hx, hle⟩⟩
      · cases hl : s.limits with
        | free =>
          rw [hl] at hle
          exact absurd (le_infinity rfl) hle
        | range lower upper =>
          rw [hl] at hle
          exact .inl ⟨_, .limits hf ha hj hx hl hle⟩
    · exact .inl ⟨_, .axis hf ha hj hx⟩
  · exact .inr ⟨hf, fun h => absurd h ha, exists_accepted_iff.mpr fun h => absurd h ha⟩

end Segment

/-! ## a description -/

namespace Chain

theorem normalized?_of_not_hasAxis {s : Segment Float} (h : ¬ s.HasAxis) :
    normalized? s = .error (.invalidAxis s.joint) := by
  rw [Segment.hasAxis_iff, Classical.not_and_iff_not_or_not, not_not, Bool.not_eq_true] at h
  unfold normalized?
  dsimp only
  rw [if_pos (by simpa using h)]
  rfl

theorem normalized?_of_not_le {s : Segment Float} (hx : s.HasAxis) {lower upper : Float}
    (hl : s.limits = .range lower upper) (hle : ¬ lower ≤ upper) :
    normalized? s = .error (.invalidLimits s.joint lower upper) := by
  obtain ⟨hlong, hfinite⟩ := Segment.hasAxis_iff.mp hx
  unfold normalized?
  dsimp only
  rw [if_neg (by simp [hlong, hfinite]), hl]
  exact if_neg hle

/-- An entry with a fault is where acceptance ends. -/
theorem accept_of_fault {frames joints : List String} {s : Segment Float} {e : ChainError Float}
    (h : s.Fault frames joints e) (rest : List (Segment Float)) :
    accept frames joints (s :: rest) = .error e := by
  rw [accept_cons]
  cases h with
  | frame hf =>
    rw [if_pos (by simpa using hf)]
  | joint hf ha hj =>
    rw [if_neg (by simpa using hf), if_pos ha, if_pos (by simpa using hj)]
  | axis hf ha hj hx =>
    rw [if_neg (by simpa using hf), if_pos ha, if_neg (by simpa using hj),
      normalized?_of_not_hasAxis hx]
  | limits hf ha hj hx hl hle =>
    rw [if_neg (by simpa using hf), if_pos ha, if_neg (by simpa using hj),
      normalized?_of_not_le hx hl hle]

theorem fault_nil_iff {frames joints : List String} {s : Segment Float} {e : ChainError Float} :
    s.Fault (frames ++ ([] : List (Segment Float)).map Segment.link)
        (joints ++ Segment.movingJoints ([] : List (Segment Float))) e ↔ s.Fault frames joints e := by
  rw [Segment.movingJoints, List.filter_nil, List.map_nil, List.map_nil, List.append_nil,
    List.append_nil]

/-- Names that an entry takes are taken before what follows it, in whatever order. -/
theorem fault_cons_iff {frames joints : List String} (s : Segment Float)
    (before : List (Segment Float)) {u : Segment Float} {e : ChainError Float} :
    u.Fault (s.link :: frames ++ before.map Segment.link)
        ((if s.isActuated then s.joint :: joints else joints) ++ Segment.movingJoints before) e ↔
      u.Fault (frames ++ (s :: before).map Segment.link)
        (joints ++ Segment.movingJoints (s :: before)) e := by
  have hframes : ∀ n, n ∈ s.link :: frames ++ before.map Segment.link ↔
      n ∈ frames ++ (s :: before).map Segment.link := by
    intro n
    simp only [List.mem_append, List.mem_cons, List.map_cons]
    tauto
  have hjoints : ∀ n,
      n ∈ (if s.isActuated then s.joint :: joints else joints) ++ Segment.movingJoints before ↔
        n ∈ joints ++ Segment.movingJoints (s :: before) := by
    intro n
    unfold Segment.movingJoints
    by_cases ha : s.isActuated = true
    · rw [if_pos ha, List.filter_cons_of_pos ha]
      simp only [List.mem_append, List.mem_cons, List.map_cons]
      tauto
    · rw [if_neg ha, List.filter_cons_of_neg ha]
  exact ⟨fun h => h.congr hframes hjoints,
    fun h => h.congr (fun n => (hframes n).symm) fun n => (hjoints n).symm⟩

/-- **Which entry is reported, and with which fault**: the first that does not fit what stands before
it. The induction is on the entries; one that fits is taken by what is accepted before the fault. -/
theorem accept_eq_error_iff {frames joints : List String} {segments : List (Segment Float)}
    {e : ChainError Float} :
    accept frames joints segments = .error e ↔ ∃ before s after, segments = before ++ s :: after ∧
      (∃ accepted, accept frames joints before = .ok accepted) ∧
      s.Fault (frames ++ before.map Segment.link) (joints ++ Segment.movingJoints before) e := by
  induction segments generalizing frames joints with
  | nil => exact ⟨nofun, fun ⟨before, s, after, h, _⟩ => by simp at h⟩
  | cons s rest ih =>
    constructor
    · intro h
      obtain ⟨e', he'⟩ | ⟨hf, hj, t, ht⟩ := s.exists_fault_or frames joints
      · rw [accept_of_fault he'] at h
        cases h
        exact ⟨[], s, rest, rfl, ⟨[], rfl⟩, fault_nil_iff.mpr he'⟩
      · rw [accept_of_accepted hf hj ht, map_eq_error, ih] at h
        obtain ⟨before, u, after, rfl, ⟨accepted, haccepted⟩, hfault⟩ := h
        exact ⟨s :: before, u, after, rfl,
          ⟨_, accept_cons_eq_ok_iff.mpr ⟨hf, hj, t, accepted, ht, rfl, haccepted⟩⟩,
          (fault_cons_iff s before).mp hfault⟩
    · rintro ⟨before, u, after, hsplit, ⟨accepted, haccepted⟩, hfault⟩
      cases before with
      | nil =>
        cases hsplit
        exact accept_of_fault (fault_nil_iff.mp hfault) _
      | cons v before =>
        cases hsplit
        obtain ⟨hf, hj, t, ts, ht, -, hts⟩ := accept_cons_eq_ok_iff.mp haccepted
        rw [accept_of_accepted hf hj ht, map_eq_error, ih]
        exact ⟨before, u, after, rfl, ⟨ts, hts⟩, (fault_cons_iff s before).mpr hfault⟩

/-- Nothing is wrong with a description, whether or not it has entries. -/
structure Faultless (base : String) (segments : List (Segment Float)) : Prop where
  frames : (base :: segments.map Segment.link).Nodup
  joints : (Segment.movingJoints segments).Nodup
  sound : ∀ s ∈ segments, s.isActuated = true → s.IsSound

theorem exists_accept_iff {base : String} {segments : List (Segment Float)} :
    (∃ accepted, accept [base] [] segments = .ok accepted) ↔ Faultless base segments := by
  simp only [accept_eq_ok_iff, fresh_singleton, fresh_nil, exists_and_left, exists_forall₂_iff,
    Segment.exists_accepted_iff]
  exact ⟨fun ⟨hf, hj, hs⟩ => ⟨hf, hj, hs⟩, fun h => ⟨h.frames, h.joints, h.sound⟩⟩

/-- **Which descriptions make a chain.** -/
theorem exists_ofSegments?_iff {base : String} {segments : List (Segment Float)} :
    (∃ c, ofSegments? base segments = .ok c) ↔ segments ≠ [] ∧ Faultless base segments := by
  rw [← exists_accept_iff]
  constructor
  · rintro ⟨c, hc⟩
    obtain ⟨hne, hframes, hjoints, -, haccepted⟩ := ofSegments?_eq_ok_iff.mp hc
    exact ⟨hne, _, accept_eq_ok_iff.mpr
      ⟨fresh_singleton.mpr hframes, fresh_nil.mpr hjoints, haccepted⟩⟩
  · rintro ⟨hne, accepted, haccepted⟩
    exact ⟨⟨base, accepted⟩, by rw [ofSegments?_of_ne_nil hne, haccepted]; rfl⟩

/-- **Which fault of a description is reported.** -/
theorem ofSegments?_eq_error_iff {base : String} {segments : List (Segment Float)}
    {e : ChainError Float} :
    ofSegments? base segments = .error e ↔ segments = [] ∧ e = .emptyChain ∨
      ∃ before s after, segments = before ++ s :: after ∧ Faultless base before ∧
        s.Fault (base :: before.map Segment.link) (Segment.movingJoints before) e := by
  by_cases hne : segments = []
  · subst hne
    constructor
    · intro h
      cases h
      exact .inl ⟨rfl, rfl⟩
    · rintro (⟨-, rfl⟩ | ⟨before, s, after, h, -⟩)
      · rfl
      · exact absurd h (by simp)
  · rw [ofSegments?_of_ne_nil hne, map_eq_error, accept_eq_error_iff]
    simp only [exists_accept_iff, hne, false_and, false_or, List.singleton_append, List.nil_append]

end Chain

/-! ## joints that do not move -/

/-- The entries carry the same frame, and they are the same if one of their joints moves. -/
def Segment.LooksLike (s s' : Segment Float) : Prop :=
  s.link = s'.link ∧ (s = s' ∨ s.isActuated = false ∧ s'.isActuated = false)

theorem Segment.LooksLike.symm {s s' : Segment Float} (h : s.LooksLike s') : s'.LooksLike s :=
  ⟨h.1.symm, h.2.imp Eq.symm And.symm⟩

theorem Segment.Fault.of_looksLike {frames joints : List String} {s s' : Segment Float}
    {e : ChainError Float} (hf : s.Fault frames joints e) (h : s.LooksLike s') :
    s'.Fault frames joints e := by
  obtain ⟨hlink, rfl | ⟨hs, -⟩⟩ := h
  · exact hf
  · cases hf with
    | frame hf =>
      rw [hlink] at hf ⊢
      exact .frame hf
    | joint _ ha | axis _ ha | limits _ ha =>
      rw [hs] at ha
      cases ha

namespace Chain

theorem accept_eq_error_of_looksLike {segments segments' : List (Segment Float)}
    (h : List.Forall₂ Segment.LooksLike segments segments') {frames joints : List String}
    {e : ChainError Float} (he : accept frames joints segments = .error e) :
    accept frames joints segments' = .error e := by
  induction h generalizing frames joints with
  | nil => exact he
  | @cons s s' rest rest' hs _ ih =>
    obtain ⟨e', he'⟩ | ⟨hf, hj, t, ht⟩ := s.exists_fault_or frames joints
    · rw [accept_of_fault he'] at he
      rw [accept_of_fault (he'.of_looksLike hs), he]
    · rw [accept_of_accepted hf hj ht, map_eq_error] at he
      obtain ⟨hlink, rfl | ⟨ha, ha'⟩⟩ := hs
      · rw [accept_of_accepted hf hj ht, map_eq_error]
        exact ih he
      · rw [hlink] at hf he
        have hfits : s'.Accepted s' := by
          unfold Segment.Accepted
          rw [if_neg (ne_true_of_eq_false ha')]
        rw [accept_of_accepted hf (fun h => absurd h (ne_true_of_eq_false ha')) hfits, map_eq_error]
        rw [ha] at he
        rw [ha']
        exact ih he

/-- **Of a joint that does not move nothing is examined**: neither its name nor its axis nor its
limits. -/
theorem ofSegments?_eq_error_iff_of_looksLike {segments segments' : List (Segment Float)}
    (h : List.Forall₂ Segment.LooksLike segments segments') {base : String}
    {e : ChainError Float} :
    ofSegments? base segments = .error e ↔ ofSegments? base segments' = .error e := by
  have hflip : List.Forall₂ Segment.LooksLike segments' segments :=
    h.flip.imp fun _ _ hs => Segment.LooksLike.symm hs
  cases h with
  | nil => rfl
  | cons hs hrest =>
    rw [ofSegments?_of_ne_nil (List.cons_ne_nil _ _), ofSegments?_of_ne_nil (List.cons_ne_nil _ _),
      map_eq_error, map_eq_error]
    exact ⟨accept_eq_error_of_looksLike (.cons hs hrest), accept_eq_error_of_looksLike hflip⟩

end Chain

end ArmServo
