import ArmServo.Proofs.Chain.Likeness
import ArmServo.Proofs.Chain.Mounting

/-!
# Folding a fixed segment away

A fixed segment only places what is behind it. Without it, and with the segment behind it placed by
both, a chain goes the same course from every placement by a unit quaternion: the two placements are
taken together there. The induction over the segments in front is that of `SameCourse.cons`.

Main statements: `actsLike_fold`, `ofSegments?_fold`.
-/

namespace ArmServo

variable {α : Type}

/-- The segment with its joint placed as it is behind the first one. -/
def Segment.placedBy [Scalar α] (s f : Segment α) : Segment α :=
  { s with origin := f.origin * s.origin }

/-! ## placements -/

namespace Segment

variable {f s : Segment ℝ}

theorem carry_of_fixed (hf : ¬ f.isActuated = true) (t : Pose ℝ) (q : List ℝ) :
    f.carry t q = (t * f.origin, q) := by
  unfold carry
  rw [if_neg hf, Chain.jointTransform_of_fixed hf, Pose.mul_one]

theorem carry_placedBy {t : Pose ℝ} (ht : t.rotation.IsUnit) (hf : f.origin.rotation.IsUnit)
    (s : Segment ℝ) (q : List ℝ) : (s.placedBy f).carry t q = s.carry (t * f.origin) q := by
  unfold carry
  rw [Pose.mul_assoc ht hf]
  rfl

theorem IsRigid.carry (hs : s.IsRigid) {t : Pose ℝ} (ht : t.rotation.IsUnit) (q : List ℝ) :
    (s.carry t q).1.rotation.IsUnit := by
  unfold Segment.carry
  split <;> exact (ht.mul hs.origin).mul (hs.jointTransform _)

end Segment

namespace Chain

/-- What is read off the moving joints is the same, unless it is their placement. -/
theorem map_actuated_fold [Scalar α] {f s : Segment α} (hfixed : ¬ f.isActuated = true)
    (after : List (Segment α)) {β : Type} {g : Segment α → β} (hg : g (s.placedBy f) = g s) :
    ((s.placedBy f :: after).filter Segment.isActuated).map g =
      ((f :: s :: after).filter Segment.isActuated).map g := by
  rw [List.filter_cons_of_neg hfixed]
  by_cases ha : s.isActuated = true
  · have ha' : (s.placedBy f).isActuated = true := ha
    rw [List.filter_cons_of_pos ha, List.filter_cons_of_pos ha', List.map_cons, List.map_cons, hg]
  · have ha' : ¬ (s.placedBy f).isActuated = true := ha
    rw [List.filter_cons_of_neg ha, List.filter_cons_of_neg ha']

theorem SameCourse.append {before segments segments' : List (Segment ℝ)} {hidden : List String}
    (hbefore : ∀ s ∈ before, s.IsRigid)
    (h : SameCourse (fun t => t.rotation.IsUnit) hidden segments segments') :
    SameCourse (fun t => t.rotation.IsUnit) hidden (before ++ segments) (before ++ segments') := by
  induction before with
  | nil => exact h
  | cons s rest ih =>
    rw [List.forall_mem_cons] at hbefore
    exact (ih hbefore.2).cons (.refl s) fun t ht q => hbefore.1.carry ht q

/-- **A fixed segment leads nowhere but to the next one.** -/
theorem sameCourse_fold {f : Segment ℝ} (hfixed : ¬ f.isActuated = true)
    (hf : f.origin.rotation.IsUnit) (s : Segment ℝ) (after : List (Segment ℝ)) :
    SameCourse (fun t => t.rotation.IsUnit) [f.link] (f :: s :: after) (s.placedBy f :: after) := by
  constructor
  case moving => exact map_actuated_fold hfixed after rfl
  case walk =>
    intro t ht q
    rw [walk_cons, walk_cons, walk_cons, Segment.carry_of_fixed hfixed,
      Segment.carry_placedBy ht hf]
  case poses =>
    intro t ht q frame hframe
    have hother : (frame == f.link) = false := by simpa using hframe
    rw [poses, poses, poses, Segment.carry_of_fixed hfixed, Segment.carry_placedBy ht hf,
      List.lookup_cons (k := f.link), hother]
    rfl
  case columns =>
    intro t ht tip q out
    have hplaced : t * (s.placedBy f).origin = t * f.origin * s.origin :=
      (Pose.mul_assoc ht hf s.origin).symm
    rw [writeColumns_of_fixed hfixed, jointTransform_of_fixed hfixed, Pose.mul_one]
    by_cases ha : s.isActuated = true
    · have ha' : (s.placedBy f).isActuated = true := ha
      rw [writeColumns_of_actuated ha, writeColumns_of_actuated ha', hplaced]
      rfl
    · have ha' : ¬ (s.placedBy f).isActuated = true := ha
      rw [writeColumns_of_fixed ha, writeColumns_of_fixed ha', hplaced]
      rfl

/-! ## chains -/

/-- Whatever has been accepted, or cut out, is accepted as it is. -/
theorem Made.ofSegments?_segments {c : Chain ℝ} (hc : c.Made) :
    ofSegments? c.base c.segments = .ok c := by
  have hwell := hc.obtained.wellFormed
  exact ofSegments?_eq_ok_iff.mpr
    ⟨hwell.segments, hwell.frames, hc.nodup_jointNames, rfl, hc.accepted⟩

theorem filter_notMem_singleton {names names' : List String} {name : String}
    (h : (names ++ name :: names').Nodup) :
    (names ++ name :: names').filter (· ∉ [name]) = names ++ names' := by
  obtain ⟨hname, -⟩ := List.nodup_cons.mp (List.nodup_middle.mp h)
  have hrest : (names ++ names').filter (· ∉ [name]) = names ++ names' := by
    refine List.filter_eq_self.mpr fun n hn => ?_
    simpa using fun he : n = name => hname (he ▸ hn)
  rw [List.filter_append, List.filter_cons_of_neg (by simp), ← List.filter_append, hrest]

/-- **The folded chain acts like the chain**, except that it lacks the frame of the fixed segment. -/
theorem actsLike_fold {base : String} {before after : List (Segment ℝ)} {f s : Segment ℝ}
    (hfixed : ¬ f.isActuated = true) (hrigid : ∀ u ∈ before ++ f :: s :: after, u.IsRigid)
    (hframes : (frames ⟨base, before ++ f :: s :: after⟩).Nodup) :
    ActsLike ⟨base, before ++ s.placedBy f :: after⟩ ⟨base, before ++ f :: s :: after⟩ [f.link] := by
  have hbefore : ∀ u ∈ before, u.IsRigid := fun u hu => hrigid u (List.mem_append_left _ hu)
  have hf := (hrigid f (List.mem_append_right _ List.mem_cons_self)).origin
  refine ((sameCourse_fold hfixed hf s after).append hbefore).actsLike Rotation.isUnit_one rfl
    ?tip ?frames
  case tip =>
    have hlast : tip ⟨base, s.placedBy f :: after⟩ = tip ⟨base, s :: after⟩ := tip_eq_of_frames rfl
    have hbehind : tip ⟨base, before ++ f :: s :: after⟩ = tip ⟨base, s :: after⟩ := by
      rw [List.append_cons]
      exact tip_append (List.cons_ne_nil _ _)
    exact (tip_append (List.cons_ne_nil _ _)).trans (hlast.trans hbehind.symm)
  case frames =>
    have hsplit : frames ⟨base, before ++ f :: s :: after⟩ =
        (base :: before.map Segment.link) ++ f.link :: (s :: after).map Segment.link := by
      rw [frames, List.map_append, List.map_cons, List.cons_append]
    rw [hsplit] at hframes ⊢
    rw [filter_notMem_singleton hframes, frames, List.map_append, List.cons_append]
    rfl

theorem accepted_placedBy [Scalar α] {s s' : Segment α} (h : s.Accepted s') (f : Segment α) :
    (s.placedBy f).Accepted (s'.placedBy f) := by
  have horigin : s'.origin = s.origin := by rw [eq_of_accepted h]
  unfold Segment.placedBy
  rw [horigin]
  exact h.withOrigin _

/-- What becomes of the entries: those that are folded are folded as they are accepted. -/
theorem accepted_fold [Scalar α] {before after ts : List (Segment α)} {f s : Segment α}
    (hfixed : ¬ f.isActuated = true)
    (h : List.Forall₂ Segment.Accepted (before ++ f :: s :: after) ts) :
    ∃ before' s' after', ts = before' ++ f :: s' :: after' ∧
      List.Forall₂ Segment.Accepted (before ++ s.placedBy f :: after)
        (before' ++ s'.placedBy f :: after') := by
  obtain ⟨before', behind, rfl, hbefore, hbehind⟩ := forall₂_append_right h.flip
  obtain ⟨f', _, hf, hrest, rfl⟩ := List.forall₂_cons_right_iff.mp hbehind
  obtain ⟨s', after', hs, hafter, rfl⟩ := List.forall₂_cons_right_iff.mp hrest
  obtain rfl : f = f' := by
    have hf' : f.Accepted f' := hf
    rw [Segment.Accepted, if_neg hfixed] at hf'
    exact hf'.symm
  have hs' : s.Accepted s' := hs
  exact ⟨before', s', after', rfl,
    List.rel_append hbefore.flip (.cons (accepted_placedBy hs' f) hafter.flip)⟩

/-- **What is accepted is accepted with a fixed segment folded away**, and becomes the folded chain. -/
theorem ofSegments?_fold [Scalar α] {base : String} {before after : List (Segment α)}
    {f s : Segment α} (hfixed : ¬ f.isActuated = true) {c : Chain α}
    (h : ofSegments? base (before ++ f :: s :: after) = .ok c) :
    ∃ before' s' after', c = ⟨base, before' ++ f :: s' :: after'⟩ ∧
      ofSegments? base (before ++ s.placedBy f :: after) =
        .ok ⟨base, before' ++ s'.placedBy f :: after'⟩ := by
  obtain ⟨-, hframes, hjoints, rfl, haccepted⟩ := ofSegments?_eq_ok_iff.mp h
  obtain ⟨before', s', after', hsegments, hfolded⟩ := accepted_fold hfixed haccepted
  refine ⟨before', s', after', by rw [← hsegments],
    ofSegments?_eq_ok_iff.mpr ⟨by simp, ?frames, ?joints, rfl, hfolded⟩⟩
  case frames =>
    have hlinks : (before ++ s.placedBy f :: after).map Segment.link =
        (before ++ s :: after).map Segment.link := by
      rw [List.map_append, List.map_append]
      rfl
    have hsublist : (before ++ s :: after).Sublist (before ++ f :: s :: after) :=
      (List.sublist_cons_self f (s :: after)).append_left before
    rw [hlinks]
    exact ((hsublist.map Segment.link).cons_cons _).nodup hframes
  case joints =>
    unfold Segment.movingJoints at hjoints ⊢
    rw [List.filter_append, List.map_append] at hjoints ⊢
    rwa [map_actuated_fold hfixed after rfl]

end Chain

end ArmServo
