import ArmServo.Proofs.Chain.Velocity

/-!
# Poses within a run

A run of a chain is a chain of its own, with the positions of its own joints. The pose of one of its
frames in the chain is the pose of the base of the run, followed by the pose of the frame in the run;
and a run cut out of a run is the one cut out of the chain.

Main statement: `poses_within_a_run`.
-/

namespace ArmServo.Chain

variable {α : Type}

/-! ## cutting twice -/

/-- The frames of a run by their places, which are shifted by the place of its base. -/
theorem frames_run_getElem? {c : Chain α} {i n k : Nat} {base frame : String}
    (h : c.frames[i]? = some base) :
    (frames ⟨base, (c.segments.drop i).take n⟩)[k]? = some frame ↔
      k ≤ n ∧ c.frames[i + k]? = some frame := by
  rw [frames_run h, List.getElem?_take, List.getElem?_drop]
  by_cases hk : k < n + 1
  · rw [if_pos hk]
    exact ⟨fun h => ⟨Nat.le_of_lt_succ hk, h⟩, And.right⟩
  · rw [if_neg hk]
    exact ⟨nofun, fun h => absurd (Nat.lt_succ_of_le h.1) hk⟩

theorem between?_of_not_mem {c : Chain α} {base : String} (h : base ∉ c.frames) (tip : String) :
    c.between? base tip = .error (.frameNotFound base) := by
  unfold between?
  rw [frameIndex?_eq_none_iff.mpr h]
  rfl

theorem between?_of_mem_of_not_mem {c : Chain α} {base tip : String} (hbase : base ∈ c.frames)
    (htip : tip ∉ c.frames) : c.between? base tip = .error (.frameNotFound tip) := by
  unfold between?
  rw [frameIndex?_eq_none_iff.mpr htip]
  cases hi : c.frameIndex? base with
  | none => exact absurd hbase (frameIndex?_eq_none_iff.mp hi)
  | some i => rfl

theorem between?_of_frameIndex? {c : Chain α} {base tip : String} {i j : Nat}
    (hi : c.frameIndex? base = some i) (hj : c.frameIndex? tip = some j) :
    c.between? base tip = if j = i then .error .emptyChain
      else if j < i then .error (.tipBeforeBase base tip)
      else .ok ⟨base, (c.segments.drop i).take (j - i)⟩ := by
  unfold between?
  rw [hi, hj]
  rfl

/-- **A run of a run is the run of the chain**, and what is no run of one is no run of the other. -/
theorem between?_run {c : Chain α} (hc : c.frames.Nodup) {i n : Nat} {base : String}
    (hi : c.frames[i]? = some base) {b t : String}
    (hb : b ∈ frames ⟨base, (c.segments.drop i).take n⟩)
    (ht : t ∈ frames ⟨base, (c.segments.drop i).take n⟩) :
    between? ⟨base, (c.segments.drop i).take n⟩ b t = c.between? b t := by
  have hrun := nodup_frames_run hc hi n
  obtain ⟨k, hk⟩ := List.getElem?_of_mem hb
  obtain ⟨l, hl⟩ := List.getElem?_of_mem ht
  obtain ⟨hkn, hk'⟩ := (frames_run_getElem? hi).mp hk
  obtain ⟨hln, hl'⟩ := (frames_run_getElem? hi).mp hl
  rw [between?_of_frameIndex? ((frameIndex?_eq_some_iff hrun).mpr hk)
      ((frameIndex?_eq_some_iff hrun).mpr hl),
    between?_of_frameIndex? ((frameIndex?_eq_some_iff hc).mpr hk')
      ((frameIndex?_eq_some_iff hc).mpr hl')]
  have hsame : i + l = i + k ↔ l = k := by omega
  have hlt : i + l < i + k ↔ l < k := by omega
  have hlength : min (l - k) (n - k) = l - k := by omega
  have hsub : i + l - (i + k) = l - k := by omega
  simp only [hsame, hlt, hsub, List.drop_take, List.drop_drop, List.take_take, hlength]

/-! ## walking in two parts -/

/-- How many of the first segments move. -/
def movingBefore (c : Chain α) (i : Nat) : Nat := (c.segments.take i).countP Segment.isActuated

section Walk

variable [Scalar α]

/-- A walk goes on where its first part has ended, with the positions that part has left. -/
theorem walk_append (t : Pose α) (before after : List (Segment α)) (q : List α) :
    walk t (before ++ after) q =
      walk (walk t before q) after (q.drop (before.countP Segment.isActuated)) := by
  induction before generalizing t q with
  | nil => rfl
  | cons s rest ih =>
    rw [List.cons_append, walk, walk]
    by_cases ha : s.isActuated = true
    · rw [if_pos ha, if_pos ha, ih, List.countP_cons_of_pos ha, ← List.drop_one, List.drop_drop,
        Nat.add_comm]
    · rw [if_neg ha, if_neg ha, ih, List.countP_cons_of_neg ha]

/-- A walk looks at one position for each joint that moves. -/
theorem walk_take (t : Pose α) (segments : List (Segment α)) (q : List α) {n : Nat}
    (h : segments.countP Segment.isActuated ≤ n) : walk t segments (q.take n) = walk t segments q := by
  induction segments generalizing t q n with
  | nil => rfl
  | cons s rest ih =>
    rw [walk, walk]
    by_cases ha : s.isActuated = true
    · rw [List.countP_cons_of_pos ha] at h
      obtain ⟨m, rfl⟩ : ∃ m, n = m + 1 := ⟨n - 1, by omega⟩
      rw [if_pos ha, if_pos ha]
      cases q with
      | nil => rfl
      | cons x q => exact ih _ q (by omega)
    · rw [List.countP_cons_of_neg ha] at h
      rw [if_neg ha, if_neg ha, ih _ q h]

end Walk

theorem isUnit_walk {segments : List (Segment ℝ)} (hs : ∀ s ∈ segments, s.IsRigid) {t : Pose ℝ}
    (ht : t.rotation.IsUnit) (q : List ℝ) : (walk t segments q).rotation.IsUnit := by
  induction segments generalizing t q with
  | nil => exact ht
  | cons s rest ih =>
    have hrigid := hs s List.mem_cons_self
    have hrest : ∀ u ∈ rest, u.IsRigid := fun u hu => hs u (List.mem_cons_of_mem _ hu)
    have hmoved : ∀ x, (t * s.origin * s.jointTransform x).rotation.IsUnit :=
      fun x => (ht.mul hrigid.origin).mul (hrigid.jointTransform x)
    rw [walk]
    split
    · exact ih hrest (hmoved _) _
    · exact ih hrest (hmoved _) _

/-- **What is in front of a walk comes out in front of it.** The induction is on the segments: what is
in front of a segment and of the motion of its joint may be taken together. -/
theorem walk_mul {segments : List (Segment ℝ)} (hs : ∀ s ∈ segments, s.IsRigid) {t u : Pose ℝ}
    (ht : t.rotation.IsUnit) (hu : u.rotation.IsUnit) (q : List ℝ) :
    walk (t * u) segments q = t * walk u segments q := by
  induction segments generalizing u q with
  | nil => rfl
  | cons s rest ih =>
    have hrigid := hs s List.mem_cons_self
    have hrest : ∀ v ∈ rest, v.IsRigid := fun v hv => hs v (List.mem_cons_of_mem _ hv)
    have hplaced : (u * s.origin).rotation.IsUnit := hu.mul hrigid.origin
    have hmoved : ∀ x, (u * s.origin * s.jointTransform x).rotation.IsUnit :=
      fun x => hplaced.mul (hrigid.jointTransform x)
    have hassoc : ∀ x, t * u * s.origin * s.jointTransform x =
        t * (u * s.origin * s.jointTransform x) := by
      intro x
      rw [Pose.mul_assoc ht hu, Pose.mul_assoc ht hplaced]
    rw [walk, walk]
    split
    · rw [hassoc, ih hrest (hmoved _)]
    · rw [hassoc, ih hrest (hmoved _)]

/-! ## the main statement -/

theorem dof_run_le (c : Chain α) (i n : Nat) (base : String) :
    c.movingBefore i + dof ⟨base, (c.segments.drop i).take n⟩ ≤ c.dof := by
  rw [dof_eq_countP, dof_eq_countP, movingBefore]
  show _ + ((c.segments.drop i).take n).countP Segment.isActuated ≤ _
  have hsplit : c.segments.countP Segment.isActuated =
      (c.segments.take i).countP Segment.isActuated +
        (c.segments.drop i).countP Segment.isActuated := by
    rw [← List.countP_append, List.take_append_drop]
  have hle : ((c.segments.drop i).take n).countP Segment.isActuated ≤
      (c.segments.drop i).countP Segment.isActuated := (List.take_sublist _ _).countP_le
  omega

theorem walk_take_add {c : Chain ℝ} (hc : ∀ s ∈ c.segments, s.IsRigid) (q : List ℝ) (i k : ℕ) :
    walk .one (c.segments.take (i + k)) q = walk .one (c.segments.take i) q *
      walk .one ((c.segments.drop i).take k) (q.drop (c.movingBefore i)) := by
  have hbefore : ∀ s ∈ c.segments.take i, s.IsRigid := fun s hs => hc s (List.mem_of_mem_take hs)
  have hrun : ∀ s ∈ (c.segments.drop i).take k, s.IsRigid :=
    fun s hs => hc s (List.mem_of_mem_drop (List.mem_of_mem_take hs))
  have hfirst := isUnit_walk hbefore (t := .one) Rotation.isUnit_one q
  rw [List.take_add, walk_append, ← walk_mul hrun hfirst Rotation.isUnit_one, Pose.mul_one]
  rfl

/-- **Poses within a run.** The pose of a frame of the run is the pose of its base, followed by the
pose of the frame within the run, where the joints of the run take the positions behind those of the
joints in front of it. What is cut out of the run is what the chain gives there. -/
theorem poses_within_a_run {c : Chain ℝ} (hc : c.Made) {base tip : String} {i j : ℕ}
    (hi : c.frameIndex? base = some i) (hj : c.frameIndex? tip = some j) (hlt : i < j) :
    ∃ run, c.between? base tip = .ok run ∧
      (∀ q, q.length = c.dof → ∀ frame ∈ run.frames, ∃ first second,
        c.pose? q base = .ok first ∧
        run.pose? ((q.drop (c.movingBefore i)).take run.dof) frame = .ok second ∧
        c.pose? q frame = .ok (first * second)) ∧
      (∀ b ∈ run.frames, ∀ t ∈ run.frames, run.between? b t = c.between? b t) ∧
      (∀ b t, b ∉ run.frames → run.between? b t = .error (.frameNotFound b)) ∧
      (∀ b ∈ run.frames, ∀ t, t ∉ run.frames → run.between? b t = .error (.frameNotFound t)) ∧
      c.between? c.base c.tip = .ok c := by
  have hwell := hc.obtained.wellFormed
  have hbase := getElem?_of_frameIndex? hi
  have hcut := between?_eq_ok_iff.mpr ⟨i, j, hi, hj, hlt, rfl⟩
  have hrun := hwell.between? hcut
  refine ⟨_, hcut, ?poses, ?runs, ?_, ?_, hwell.between?_base_tip⟩
  case poses =>
    intro q hq frame hframe
    obtain ⟨k, hk⟩ := List.getElem?_of_mem hframe
    obtain ⟨hkn, hk'⟩ := (frames_run_getElem? hbase).mp hk
    have henough := dof_run_le c i (j - i) base
    have hlength : ((q.drop (c.movingBefore i)).take
        (dof ⟨base, (c.segments.drop i).take (j - i)⟩)).length =
          dof ⟨base, (c.segments.drop i).take (j - i)⟩ := by
      rw [List.length_take, List.length_drop]
      omega
    refine ⟨_, _, pose?_eq_ok hq hi,
      pose?_eq_ok hlength ((frameIndex?_eq_some_iff hrun.frames).mpr hk), ?_⟩
    have htake : ((c.segments.drop i).take (j - i)).take k = (c.segments.drop i).take k := by
      rw [List.take_take, Nat.min_eq_left hkn]
    have hmoving : ((c.segments.drop i).take k).countP Segment.isActuated ≤
        dof ⟨base, (c.segments.drop i).take (j - i)⟩ := by
      rw [dof_eq_countP, ← htake]
      exact (List.take_sublist _ _).countP_le
    rw [pose?_eq_ok hq ((frameIndex?_eq_some_iff hwell.frames).mpr hk'), walk_take_add hc.isRigid,
      htake, walk_take _ _ _ hmoving]
  case runs => exact fun b hb t ht => between?_run hwell.frames hbase hb ht
  · exact fun b t hb => between?_of_not_mem hb t
  · exact fun b hb t ht => between?_of_mem_of_not_mem hb ht

/-- The slide alone takes the second of the two positions. -/
theorem slide_within_slideOnLink : ∃ c run : Chain ℝ, ofSegments? "floor" slideOnLink = .ok c ∧
    c.between? "link" "tool" = .ok run ∧ ∃ first second,
      c.pose? [1, 1 / 2] "link" = .ok first ∧ run.pose? [1 / 2] "tool" = .ok second ∧
        c.pose? [1, 1 / 2] "tool" = .ok (first * second) := by
  obtain ⟨c, hc, hdof⟩ := ofSegments?_slideOnLink
  have hlink : c.frameIndex? "link" = some 2 := by
    rw [frameIndex?, frames_slideOnLink hc]
    rfl
  have htool : c.frameIndex? "tool" = some 3 := by
    rw [frameIndex?, frames_slideOnLink hc]
    rfl
  have hmoving : c.segments.map Segment.isActuated = [false, true, true] := by
    rw [map_isActuated_of_accepted (ofSegments?_eq_ok_iff.mp hc).2.2.2.2]
    rfl
  obtain ⟨run, hrun, hposes, -⟩ :=
    poses_within_a_run (made_slideOnLink hc) hlink htool (by decide)
  obtain rfl : run = ⟨"link", (c.segments.drop 2).take 1⟩ := by
    rw [between?_of_frameIndex? hlink htool] at hrun
    exact (Except.ok.inj hrun).symm
  have hbefore : c.movingBefore 2 = 1 := by
    show (c.segments.take 2).countP (id ∘ Segment.isActuated) = 1
    rw [← List.countP_map, List.map_take, hmoving]
    rfl
  have hrunDof : dof ⟨"link", (c.segments.drop 2).take 1⟩ = 1 := by
    rw [dof_eq_countP]
    show ((c.segments.drop 2).take 1).countP (id ∘ Segment.isActuated) = 1
    rw [← List.countP_map, List.map_take, List.map_drop, hmoving]
    rfl
  have hpose := hposes [1, 1 / 2] hdof.symm "tool" (by
    refine List.mem_of_getElem? ((frames_run_getElem? (getElem?_of_frameIndex? hlink)).mpr
      ⟨Nat.le_refl 1, getElem?_of_frameIndex? htool⟩))
  rw [hbefore, hrunDof] at hpose
  exact ⟨c, _, hc, hrun, hpose⟩

end ArmServo.Chain
