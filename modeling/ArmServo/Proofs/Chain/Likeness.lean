import ArmServo.Proofs.Chain.Shape

/-!
# Chains that act alike

Of its segments a chain shows which joints move and how far they may, where its frames are, and the
columns of the joints. Two lists of segments that agree in this, from every placement of some kind, go
on agreeing behind one more segment (`SameCourse.cons`); chains of such segments answer alike. Of a
segment that does not move only the frame and the placement are looked at.

Main statements: `SameCourse.actsLike`, `Relabels.actsLike`, `alike_ofSegments?`.
-/

namespace ArmServo

variable {α : Type}

/-! ## where the frames are -/

section Poses

variable [Scalar α]

/-- Where a segment leads from a placement, and the positions that are left for those behind it. -/
def Segment.carry (s : Segment α) (t : Pose α) (q : List α) : Pose α × List α :=
  if s.isActuated then (t * s.origin * s.jointTransform (q.headD 0), q.tail)
  else (t * s.origin * s.jointTransform 0, q)

namespace Chain

theorem walk_cons (t : Pose α) (s : Segment α) (rest : List (Segment α)) (q : List α) :
    walk t (s :: rest) q = walk (s.carry t q).1 rest (s.carry t q).2 := by
  rw [walk, Segment.carry]
  split <;> rfl

/-- The frames behind a placement, each with its pose. -/
def poses (t : Pose α) : List (Segment α) → List α → List (String × Pose α)
  | [], _ => []
  | s :: rest, q => (s.link, (s.carry t q).1) :: poses (s.carry t q).1 rest (s.carry t q).2

theorem lookup_poses (name frame : String) (t : Pose α) (segments : List (Segment α)) (q : List α) :
    ((name, t) :: poses t segments q).lookup frame =
      ((name :: segments.map Segment.link).findIdx? (· == frame)).map fun i =>
        walk t (segments.take i) q := by
  induction segments generalizing name t q with
  | nil =>
    rw [List.lookup_cons, List.map_nil, List.findIdx?_cons, BEq.comm]
    cases name == frame <;> rfl
  | cons s rest ih =>
    rw [List.lookup_cons, List.findIdx?_cons, BEq.comm]
    cases name == frame with
    | true => rfl
    | false =>
      dsimp only
      rw [poses, ih, List.map_cons, if_neg Bool.false_ne_true, Option.map_map]
      exact congrArg (Option.map · _) (funext fun i => (walk_cons t s (rest.take i) q).symm)

theorem pose?_eq_lookup (c : Chain α) (q : List α) (frame : String) :
    c.pose? q frame = c.checkDimension q.length >>= fun _ =>
      (((c.base, .one) :: poses .one c.segments q).lookup frame).elim
        (throw (.frameNotFound frame)) pure := by
  unfold pose? frameIndex? frames poseAt
  rw [lookup_poses]
  cases (c.base :: c.segments.map Segment.link).findIdx? (· == frame) <;> rfl

theorem exists_pose? {c : Chain α} {q : List α} (hq : q.length = c.dof) {frame : String}
    (hframe : frame ∈ c.frames) : ∃ p, c.pose? q frame = .ok p := by
  cases hi : c.frameIndex? frame with
  | none => exact absurd hframe (frameIndex?_eq_none_iff.mp hi)
  | some i => exact ⟨_, pose?_eq_ok hq hi⟩

end Chain

end Poses

/-! ## segments that lead the same way -/

/-- The same segment, except perhaps for the joint, the axis and the limits of one that does not move. -/
def Segment.Relabels (s s' : Segment α) : Prop :=
  s' = s ∨ s.kind = .fixed ∧
    ∃ joint axis limits, s' = { s with joint := joint, axis := axis, limits := limits }

namespace Segment

variable {s s' : Segment α}

theorem Relabels.refl (s : Segment α) : s.Relabels s := .inl rfl

theorem Relabels.link (h : s.Relabels s') : s'.link = s.link := by
  obtain rfl | ⟨-, joint, axis, limits, rfl⟩ := h <;> rfl

theorem Relabels.isActuated (h : s.Relabels s') : s'.isActuated = s.isActuated := by
  obtain rfl | ⟨-, joint, axis, limits, rfl⟩ := h <;> rfl

theorem isActuated_of_kind (hk : s.kind = .fixed) : ¬ s.isActuated = true := by
  rw [isActuated, hk]
  exact Bool.false_ne_true

theorem Relabels.eq_of_actuated (h : s.Relabels s') (hs : s.isActuated = true) : s' = s := by
  obtain h | ⟨hk, -⟩ := h
  · exact h
  · exact absurd hs (isActuated_of_kind hk)

theorem Relabels.carry [Scalar α] (h : s.Relabels s') (t : Pose α) (q : List α) :
    s'.carry t q = s.carry t q := by
  obtain rfl | ⟨hk, joint, axis, limits, rfl⟩ := h
  · rfl
  · unfold Segment.carry Segment.isActuated Segment.jointTransform
    simp only [hk]

end Segment

namespace Chain

section Course

variable [Scalar α]

/-- From every placement of a kind the two lists of segments move the same joints within the same
limits, carry the frames to the same places, those that are hidden apart, end at the same place, and
write the same columns. -/
structure SameCourse (kind : Pose α → Prop) (hidden : List String)
    (segments segments' : List (Segment α)) : Prop where
  moving : (segments'.filter Segment.isActuated).map (fun s => (s.joint, s.limits)) =
    (segments.filter Segment.isActuated).map fun s => (s.joint, s.limits)
  walk : ∀ t, kind t → ∀ q, walk t segments' q = walk t segments q
  poses : ∀ t, kind t → ∀ q, ∀ frame ∉ hidden,
    (poses t segments' q).lookup frame = (poses t segments q).lookup frame
  columns : ∀ t, kind t → ∀ tip q out,
    writeColumns tip t segments' q out = writeColumns tip t segments q out

variable {kind : Pose α → Prop} {hidden : List String} {segments segments' : List (Segment α)}

theorem SameCourse.refl (kind : Pose α → Prop) (hidden : List String)
    (segments : List (Segment α)) : SameCourse kind hidden segments segments :=
  ⟨rfl, fun _ _ _ => rfl, fun _ _ _ _ _ => rfl, fun _ _ _ _ _ => rfl⟩

/-- **What leads the same way does so behind one more segment**, if that leaves the placements of their
kind. -/
theorem SameCourse.cons {s s' : Segment α} (hs : s.Relabels s')
    (hkind : ∀ t, kind t → ∀ q, kind (s.carry t q).1)
    (h : SameCourse kind hidden segments segments') :
    SameCourse kind hidden (s :: segments) (s' :: segments') := by
  constructor
  case moving =>
    by_cases ha : s.isActuated = true
    · rw [hs.eq_of_actuated ha, List.filter_cons_of_pos ha, List.filter_cons_of_pos ha, List.map_cons,
        List.map_cons, h.moving]
    · rw [List.filter_cons_of_neg ha, List.filter_cons_of_neg (by rwa [hs.isActuated]), h.moving]
  case walk =>
    intro t ht q
    rw [walk_cons, walk_cons, hs.carry, h.walk _ (hkind t ht q)]
  case poses =>
    intro t ht q frame hframe
    rw [Chain.poses, Chain.poses, hs.link, hs.carry, List.lookup_cons, List.lookup_cons,
      h.poses _ (hkind t ht q) _ frame hframe]
  case columns =>
    intro t ht tip q out
    have hnext := hkind t ht q
    have hcarry := hs.carry t q
    unfold Segment.carry at hnext hcarry
    by_cases ha : s.isActuated = true
    · rw [if_pos ha] at hnext
      rw [hs.eq_of_actuated ha, writeColumns_of_actuated ha, writeColumns_of_actuated ha,
        h.columns _ hnext]
    · have ha' : ¬ s'.isActuated = true := by rwa [hs.isActuated]
      rw [if_neg ha] at hnext hcarry
      rw [if_neg ha', Prod.mk.injEq] at hcarry
      rw [writeColumns_of_fixed ha, writeColumns_of_fixed ha', hcarry.1, h.columns _ hnext]

/-- The induction is on the segments; any placement will do. -/
theorem sameCourse_of_relabels (h : List.Forall₂ Segment.Relabels segments segments') :
    SameCourse (fun _ => True) [] segments segments' := by
  induction h with
  | nil => exact .refl _ _ _
  | cons hs _ ih => exact ih.cons hs fun _ _ _ => trivial

/-! ## chains that lead the same way -/

/-- The first chain answers like the second one, of which it lacks the hidden frames. -/
structure ActsLike (c' c : Chain α) (hidden : List String) : Prop where
  base : c'.base = c.base
  tip : c'.tip = c.tip
  frames : c'.frames = c.frames.filter (· ∉ hidden)
  dof : c'.dof = c.dof
  jointNames : c'.jointNames = c.jointNames
  limits : c'.limits = c.limits
  pose? : ∀ q, ∀ frame ∉ hidden, c'.pose? q frame = c.pose? q frame
  /-- Every frame that is left has a pose. -/
  poses : ∀ q, q.length = c.dof → ∀ frame ∈ c'.frames, ∃ p, c'.pose? q frame = .ok p
  tipPose? : ∀ q, c'.tipPose? q = c.tipPose? q
  jacobian? : ∀ q out, c'.jacobian? q out = c.jacobian? q out
  /-- There are columns, as many as joints that move. -/
  columns : ∀ q out, q.length = c.dof → out.length = c.dof →
    ∃ columns, c'.jacobian? q out = .ok columns ∧ columns.length = c.dof

/-- **Chains act alike if their segments lead the same way** from where chains begin. -/
theorem SameCourse.actsLike {c c' : Chain α} (h : SameCourse kind hidden c.segments c'.segments)
    (hone : kind .one) (hbase : c'.base = c.base) (htip : c'.tip = c.tip)
    (hframes : c'.frames = c.frames.filter (· ∉ hidden)) : c'.ActsLike c hidden := by
  have hdof : c'.dof = c.dof := by
    have hlength := congrArg List.length h.moving
    rwa [List.length_map, List.length_map] at hlength
  have hnames : c'.jointNames = c.jointNames := by
    have hfst := congrArg (List.map Prod.fst) h.moving
    rwa [List.map_map, List.map_map] at hfst
  have hlimits : c'.limits = c.limits := by
    have hsnd := congrArg (List.map Prod.snd) h.moving
    rwa [List.map_map, List.map_map] at hsnd
  have hcheck : ∀ n, c'.checkDimension n = c.checkDimension n := by
    intro n
    rw [checkDimension, checkDimension, hdof]
  have hwalk : ∀ q, c'.poseAt q c'.segments.length = c.poseAt q c.segments.length := by
    intro q
    rw [poseAt, poseAt, List.take_length, List.take_length, h.walk _ hone]
  have hjacobian : ∀ q out, c'.jacobian? q out = c.jacobian? q out := by
    intro q out
    simp only [jacobian?_eq, hcheck, hwalk, h.columns _ hone]
  refine ⟨hbase, htip, hframes, hdof, hnames, hlimits, ?pose?, ?poses, ?tipPose?, hjacobian, ?columns⟩
  case pose? =>
    intro q frame hframe
    simp only [pose?_eq_lookup, hcheck, hbase, List.lookup_cons, h.poses _ hone q frame hframe]
  case poses => exact fun q hq frame hframe => exists_pose? (hq.trans hdof.symm) hframe
  case tipPose? =>
    intro q
    rw [tipPose?, tipPose?, hcheck, hwalk]
  case columns =>
    intro q out hq hout
    have hok := jacobian?_eq_ok.mpr ⟨hq, hout, rfl⟩
    exact ⟨_, (hjacobian q out).trans hok, length_of_jacobian? hok⟩

end Course

/-! ## what a fixed segment is called -/

theorem tip_eq_of_frames {c c' : Chain α} (h : c'.frames = c.frames) : c'.tip = c.tip := by
  have hlast : ∀ d : Chain α, d.frames.getLast? = some d.tip := by
    intro d
    unfold frames tip
    rw [List.getLast?_cons, List.getLast?_map]
  exact Option.some.inj ((hlast c').symm.trans ((congrArg List.getLast? h).trans (hlast c)))

/-- The same chain, except perhaps for joints, axes and limits of segments that do not move. -/
structure Relabels (c c' : Chain α) : Prop where
  base : c'.base = c.base
  segments : List.Forall₂ Segment.Relabels c.segments c'.segments

variable {c c' : Chain α}

theorem Relabels.frames (h : c.Relabels c') : c'.frames = c.frames := by
  have hlinks := forall₂_map_eq_iff.mp (h.segments.imp fun _ _ hs => hs.link.symm)
  rw [Chain.frames, Chain.frames, h.base, hlinks]

/-- **A chain answers alike whatever its fixed segments are called**, and whatever their axes and
limits are. -/
theorem Relabels.actsLike [Scalar α] (h : c.Relabels c') : c'.ActsLike c [] := by
  refine (sameCourse_of_relabels h.segments).actsLike trivial h.base (tip_eq_of_frames h.frames) ?_
  rw [h.frames]
  exact (List.filter_eq_self.mpr fun _ _ => by simp).symm

theorem Relabels.between? (h : c.Relabels c') (base tip : String) :
    Alike Relabels (c.between? base tip) (c'.between? base tip) := by
  unfold Chain.between? frameIndex?
  rw [h.frames]
  cases c.frames.findIdx? (· == base) with
  | none => exact .error _
  | some i =>
    cases c.frames.findIdx? (· == tip) with
    | none => exact .error _
    | some j =>
      dsimp only
      split
      · exact .error _
      · split
        · exact .error _
        · exact .ok ⟨rfl, List.forall₂_take _ (List.forall₂_drop _ h.segments)⟩

section Accept

variable [Scalar α]

/-- Fixed segments pass whatever they are called. The induction is on the segments, with the names that
are taken by those in front. -/
theorem alike_accept {segments segments' : List (Segment α)}
    (h : List.Forall₂ Segment.Relabels segments segments') (frames joints : List String) :
    Alike (List.Forall₂ Segment.Relabels) (accept frames joints segments)
      (accept frames joints segments') := by
  induction h generalizing frames joints with
  | nil => exact .ok .nil
  | @cons s s' rest rest' hs _ ih =>
    rw [accept_cons, accept_cons, hs.link, hs.isActuated]
    split
    · exact .error _
    · split
      case isTrue ha =>
        rw [hs.eq_of_actuated ha]
        split
        · exact .error _
        · cases normalized? s with
          | error e => exact .error e
          | ok t => exact (ih _ _).map fun _ _ hrest => .cons (.refl t) hrest
      case isFalse => exact (ih _ _).map fun _ _ hrest => .cons hs hrest

/-- **A description is accepted, or refused, whatever its fixed segments are called.** -/
theorem alike_ofSegments? {segments segments' : List (Segment α)}
    (h : List.Forall₂ Segment.Relabels segments segments') (base : String) :
    Alike Relabels (ofSegments? base segments) (ofSegments? base segments') := by
  cases h with
  | nil => exact .error _
  | cons hs hrest =>
    rw [ofSegments?_of_ne_nil (List.cons_ne_nil _ _), ofSegments?_of_ne_nil (List.cons_ne_nil _ _)]
    exact (alike_accept (.cons hs hrest) _ _).map fun _ _ haccepted => ⟨rfl, haccepted⟩

end Accept

end Chain

end ArmServo
