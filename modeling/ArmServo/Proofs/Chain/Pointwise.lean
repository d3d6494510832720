import ArmServo.Proofs.Chain.Runs
import ArmServo.Proofs.Motion.Solver
import ArmServo.Scalar.Binary64

/-!
# The Jacobian, column by column

Poses and columns are found by two walks along a chain, each with its own count of the joints that
move. Here they are told without walking: a pose is the product of the placements and joint motions
in front of its frame, and the column of a joint is made of the pose of its segment and of the tip.
The joint of a segment is found by the number of moving joints in front of it. Nothing is assumed of
the arithmetic.

Main statements: `walk_take_eq_product`, `writeColumns_getElem?`, `jacobian_is_pointwise`.
-/

namespace ArmServo.Chain

variable {α : Type} [Scalar α]

/-! ## poses -/

/-- The product of placements and joint motions behind `t`, in order. -/
def product (t : Pose α) (joints : List (Segment α × α)) : Pose α :=
  joints.foldl (fun t joint => t * joint.1.origin * joint.1.jointTransform joint.2) t

/-- `xs` are the positions of all segments if `q` are those of the joints that move: a joint that
moves takes the position in `q` with as many positions before it as there are moving joints before
the segment, and one that is fixed stands at zero. -/
structure Stands (segments : List (Segment α)) (q xs : List α) : Prop where
  length : xs.length = segments.length
  moving : ∀ (j : Nat) (s : Segment α), segments[j]? = some s → s.isActuated = true →
    xs[j]? = q[(segments.take j).countP Segment.isActuated]?
  fixed : ∀ (j : Nat) (s : Segment α), segments[j]? = some s → ¬ s.isActuated = true →
    xs[j]? = some 0

theorem Stands.cons_moving {s : Segment α} (hs : s.isActuated = true) (x : α)
    {rest : List (Segment α)} {q xs : List α} (h : Stands rest q xs) :
    Stands (s :: rest) (x :: q) (x :: xs) where
  length := congrArg Nat.succ h.length
  moving
    | 0, _, _, _ => rfl
    | j + 1, u, hu, hmoves => by
      rw [List.take_succ_cons, List.countP_cons_of_pos hs]
      exact h.moving j u hu hmoves
  fixed
    | 0, _, hu, hfixed => absurd hs (Option.some.inj hu ▸ hfixed)
    | j + 1, u, hu, hfixed => h.fixed j u hu hfixed

theorem Stands.cons_fixed {s : Segment α} (hs : ¬ s.isActuated = true) {rest : List (Segment α)}
    {q xs : List α} (h : Stands rest q xs) : Stands (s :: rest) q (0 :: xs) where
  length := congrArg Nat.succ h.length
  moving
    | 0, _, hu, hmoves => absurd hmoves (Option.some.inj hu ▸ hs)
    | j + 1, u, hu, hmoves => by
      rw [List.take_succ_cons, List.countP_cons_of_neg hs]
      exact h.moving j u hu hmoves
  fixed
    | 0, _, _, _ => rfl
    | j + 1, u, hu, hfixed => h.fixed j u hu hfixed

/-- **A walk is a product**, as far as it is followed. With one position for each joint that moves,
the position that counts for a missing one is never taken. -/
theorem walk_take_eq_product {segments : List (Segment α)} {q : List α}
    (hq : q.length = segments.countP Segment.isActuated) :
    ∃ xs, Stands segments q xs ∧
      ∀ t j, walk t (segments.take j) q = product t ((segments.zip xs).take j) := by
  induction segments generalizing q with
  | nil =>
    refine ⟨[], ⟨rfl, nofun, nofun⟩, fun t j => ?_⟩
    rw [List.take_nil, List.zip_nil_left, List.take_nil]
    rfl
  | cons s rest ih =>
    by_cases hs : s.isActuated = true
    · rw [List.countP_cons_of_pos hs] at hq
      obtain ⟨x, q, rfl⟩ := List.exists_cons_of_length_eq_add_one hq
      obtain ⟨xs, hxs, hwalk⟩ := ih (Nat.succ.inj hq)
      refine ⟨x :: xs, hxs.cons_moving hs x, fun t j => ?_⟩
      cases j with
      | zero => rfl
      | succ j =>
        rw [List.take_succ_cons, walk, if_pos hs]
        exact hwalk _ j
    · rw [List.countP_cons_of_neg hs] at hq
      obtain ⟨xs, hxs, hwalk⟩ := ih hq
      refine ⟨0 :: xs, hxs.cons_fixed hs, fun t j => ?_⟩
      cases j with
      | zero => rfl
      | succ j =>
        rw [List.take_succ_cons, walk, if_neg hs]
        exact hwalk _ j

theorem poseAt_congr {c : Chain α} {q q' : List α} {j : Nat}
    (h : q'.take (c.movingBefore j) = q.take (c.movingBefore j)) :
    c.poseAt q' j = c.poseAt q j := by
  unfold poseAt
  rw [← walk_take _ _ q' (Nat.le_refl _), ← walk_take _ _ q (Nat.le_refl _)]
  exact congrArg _ h

/-! ## columns -/

/-- **The column of a joint**, wherever its segment is. The induction is on the segments in front of
it: each of them moves the walk on, and those that move also count a column. -/
theorem writeColumns_getElem? (tip : Vec3 α) (t : Pose α) {segments : List (Segment α)} (q : List α)
    (out : List (Axes α)) {j : Nat} {s : Segment α} (hj : segments[j]? = some s)
    (hs : s.isActuated = true) :
    (writeColumns tip t segments q out)[(segments.take j).countP Segment.isActuated]? =
      some (s.column (walk t (segments.take j) q * s.origin) tip) := by
  induction segments generalizing t q out j with
  | nil => cases hj
  | cons u rest ih =>
    cases j with
    | zero =>
      obtain rfl : u = s := Option.some.inj hj
      rw [writeColumns_of_actuated hs]
      rfl
    | succ j =>
      rw [List.getElem?_cons_succ] at hj
      rw [List.take_succ_cons, walk]
      by_cases hu : u.isActuated = true
      · rw [List.countP_cons_of_pos hu, writeColumns_of_actuated hu, List.getElem?_cons_succ,
          if_pos hu]
        exact ih _ _ _ hj
      · rw [List.countP_cons_of_neg hu, writeColumns_of_fixed hu, if_neg hu]
        exact ih _ _ _ hj

/-- Columns take the place of as many old ones, and those beyond them stay. -/
theorem writeColumns_eq_append (tip : Vec3 α) (t : Pose α) (segments : List (Segment α))
    (q : List α) (out : List (Axes α)) :
    writeColumns tip t segments q out =
      writeColumns tip t segments q [] ++ out.drop (segments.countP Segment.isActuated) := by
  induction segments generalizing t q out with
  | nil => rfl
  | cons s rest ih =>
    by_cases hs : s.isActuated = true
    · rw [writeColumns_of_actuated hs, writeColumns_of_actuated hs, List.countP_cons_of_pos hs,
        ih _ _ out.tail, List.drop_tail, List.cons_append]
      rfl
    · rw [writeColumns_of_fixed hs, writeColumns_of_fixed hs, List.countP_cons_of_neg hs]
      exact ih _ _ out

theorem jacobian?_congr {c : Chain α} (q : List α) {out out' : List (Axes α)}
    (h : out'.length = out.length) : c.jacobian? q out' = c.jacobian? q out := by
  rw [jacobian?_eq, jacobian?_eq, h]
  cases hq : c.checkDimension q.length with
  | error e => rfl
  | ok _ =>
    cases ho : c.checkDimension out.length with
    | error e => rfl
    | ok _ =>
      have hwidth : out.length = c.segments.countP Segment.isActuated :=
        (checkDimension_eq_ok.mp ho).trans c.dof_eq_countP
      show Except.ok _ = Except.ok _
      rw [writeColumns_eq_append, writeColumns_eq_append _ _ _ _ out, ← hwidth, List.drop_length,
        ← h, List.drop_length]

omit [Scalar α] in
theorem checkDimension_of_ne {c : Chain α} {n : Nat} (h : n ≠ c.dof) :
    c.checkDimension n = .error (.dimensionMismatch c.dof n) := if_neg h

omit [Scalar α] in
/-- Every number of a moving joint is that of some segment. -/
theorem exists_of_lt_countP {segments : List (Segment α)} {k : Nat}
    (hk : k < segments.countP Segment.isActuated) :
    ∃ j s, segments[j]? = some s ∧ s.isActuated = true ∧
      (segments.take j).countP Segment.isActuated = k := by
  induction segments generalizing k with
  | nil => cases hk
  | cons s rest ih =>
    by_cases hs : s.isActuated = true
    · rw [List.countP_cons_of_pos hs] at hk
      cases k with
      | zero => exact ⟨0, s, rfl, hs, rfl⟩
      | succ k =>
        obtain ⟨j, u, hj, hu, hcount⟩ := ih (Nat.lt_of_succ_lt_succ hk)
        refine ⟨j + 1, u, hj, hu, ?_⟩
        rw [List.take_succ_cons, List.countP_cons_of_pos hs, hcount]
    · rw [List.countP_cons_of_neg hs] at hk
      obtain ⟨j, u, hj, hu, hcount⟩ := ih hk
      refine ⟨j + 1, u, hj, hu, ?_⟩
      rw [List.take_succ_cons, List.countP_cons_of_neg hs, hcount]

/-! ## the main statement -/

/-- What `columns` are at `q`, one by one. The column of a joint stands behind those of the joints
in front of it. With `a` the pose at which the joint is placed, `z` its axis there and `p` the place of
the tip, it is `(z × (p - a), z)` for a revolute and `(z, 0)` for a prismatic joint. -/
structure IsPointwise (c : Chain α) (q : List α) (columns : List (Axes α)) : Prop where
  length : columns.length = c.dof
  revolute : ∀ j s, c.segments[j]? = some s → s.kind = .revolute →
    ∀ a z, a = c.poseAt q j * s.origin → z = a.rotation.apply s.axis →
      columns[c.movingBefore j]? = some (.ofParts
        (z.cross ((c.poseAt q c.segments.length).displacement - a.displacement)) z)
  prismatic : ∀ j s, c.segments[j]? = some s → s.kind = .prismatic →
    ∀ a z, a = c.poseAt q j * s.origin → z = a.rotation.apply s.axis →
      columns[c.movingBefore j]? = some (.ofParts z .zero)
  /-- There are no other columns. -/
  every : ∀ k, k < c.dof → ∃ j s, c.segments[j]? = some s ∧ s.isActuated = true ∧
    c.movingBefore j = k

theorem isPointwise_of_jacobian? {c : Chain α} {q : List α} {out columns : List (Axes α)}
    (h : c.jacobian? q out = .ok columns) : c.IsPointwise q columns := by
  have hlength := length_of_jacobian? h
  obtain ⟨-, -, rfl⟩ := jacobian?_eq_ok.mp h
  have hcolumn := @writeColumns_getElem? α _ (c.poseAt q c.segments.length).displacement .one
    c.segments q out
  constructor
  case length => exact hlength
  case revolute =>
    rintro j s hj hk a z rfl rfl
    have hs : s.isActuated = true := by rw [Segment.isActuated, hk]; rfl
    rw [movingBefore, hcolumn hj hs, Segment.column, hk]
    rfl
  case prismatic =>
    rintro j s hj hk a z rfl rfl
    have hs : s.isActuated = true := by rw [Segment.isActuated, hk]; rfl
    rw [movingBefore, hcolumn hj hs, Segment.column, hk]
    rfl
  case every =>
    intro k hk
    rw [dof_eq_countP] at hk
    exact exists_of_lt_countP hk

/-- **The Jacobian is what it is column by column.** A wrong number of positions, or else a wrong
width of the buffer, is refused and leaves the buffer as it is. Otherwise there is a Jacobian,
whatever the buffer held; its columns are made of poses, and poses are products of placements and
joint motions in which every joint that moves takes its own position, so that the pose of a frame
depends only on the positions of the joints in front of it. -/
theorem jacobian_is_pointwise (c : Chain α) (q : List α) (out : List (Axes α)) :
    (q.length ≠ c.dof → c.jacobian? q out = .error (.dimensionMismatch c.dof q.length)) ∧
    (q.length = c.dof → out.length ≠ c.dof →
      c.jacobian? q out = .error (.dimensionMismatch c.dof out.length)) ∧
    (∀ e, c.jacobian? q out = .error e → (c.writeJacobian q).run out = (.error e, out)) ∧
    (∀ (s : Solver α) (e : ChainError α), s.chain = c → s.motion.positions = q → s.jacobian = out →
      c.jacobian? q out = .error e →
        Solver.refreshJacobian.run s = (.error (.refused (.kinematics e)), s)) ∧
    (q.length = c.dof → out.length = c.dof →
      (∃ columns, (∀ out', out'.length = c.dof → c.jacobian? q out' = .ok columns ∧
        (c.writeJacobian q).run out' = (.ok (), columns)) ∧ c.IsPointwise q columns) ∧
      (∃ xs, Stands c.segments q xs ∧
        ∀ j, c.poseAt q j = product .one ((c.segments.zip xs).take j)) ∧
      ∀ q' j frame, q'.length = c.dof → c.frameIndex? frame = some j →
        q'.take (c.movingBefore j) = q.take (c.movingBefore j) →
          c.pose? q' frame = c.pose? q frame) := by
  refine ⟨fun hq => ?_, fun hq hout => ?_, fun e he => ?_, ?_,
    fun hq hout => ⟨?columns, ?poses, ?frames⟩⟩
  · rw [jacobian?_eq, checkDimension_of_ne hq]
    rfl
  · rw [jacobian?_eq, checkDimension_eq_ok.mpr hq, checkDimension_of_ne hout]
    rfl
  · rw [writeJacobian_run, he]
  · rintro s e rfl rfl rfl he
    rw [Solver.refreshJacobian_run, he]
  case columns =>
    have hok := jacobian?_eq_ok.mpr ⟨hq, hout, rfl⟩
    refine ⟨_, fun out' hout' => ?_, isPointwise_of_jacobian? hok⟩
    have hok' := (jacobian?_congr q (hout'.trans hout.symm)).trans hok
    exact ⟨hok', by rw [writeJacobian_run, hok']⟩
  case poses =>
    rw [dof_eq_countP] at hq
    obtain ⟨xs, hxs, hwalk⟩ := walk_take_eq_product hq
    exact ⟨xs, hxs, hwalk .one⟩
  case frames =>
    intro q' j frame hq' hj hsame
    rw [pose?_eq_ok hq' hj, pose?_eq_ok hq hj]
    exact congrArg Except.ok (poseAt_congr hsame)

/-- A hand that turns beside the frame before it. -/
def hand : Segment Float := ⟨"turn", "hand", .revolute, .unitZ, ⟨.one, ⟨0.0, 1.0, 0.0⟩⟩, .free⟩

/-- A lift, a plate on it and the hand. -/
def plateArm : Chain Float :=
  ⟨"floor", [
    ⟨"lift", "carriage", .prismatic, .unitZ, .one, .range 0.0 0.5⟩,
    ⟨"bolt", "plate", .fixed, .unitZ, ⟨.one, ⟨1.0, 0.0, 0.0⟩⟩, .free⟩,
    hand]⟩

/-- A column in which nothing is a number. -/
def staleColumn : Axes Float := .uniform (0.0 / 0.0)

/-- The hand has the second column, behind two segments, whatever stood there; and the plate does
not notice how the hand is turned. -/
theorem plateArm_second_column :
    ∃ columns, plateArm.jacobian? [0.25, 1.0] [staleColumn, staleColumn] = .ok columns ∧
      (∀ a z, a = plateArm.poseAt [0.25, 1.0] 2 * hand.origin → z = a.rotation.apply hand.axis →
        columns[1]? = some (.ofParts
          (z.cross ((plateArm.poseAt [0.25, 1.0] 3).displacement - a.displacement)) z)) ∧
      plateArm.pose? [0.25, 0.5] "plate" = plateArm.pose? [0.25, 1.0] "plate" := by
  obtain ⟨-, -, -, -, h⟩ := jacobian_is_pointwise plateArm [0.25, 1.0] [staleColumn, staleColumn]
  obtain ⟨⟨columns, hcolumns, hpointwise⟩, -, hframes⟩ := h rfl rfl
  have hplate : plateArm.frameIndex? "plate" = some 2 := by decide
  have hbefore : plateArm.movingBefore 2 = 1 := rfl
  have hhand := hpointwise.revolute 2 hand rfl rfl
  rw [hbefore] at hhand
  refine ⟨columns, (hcolumns _ rfl).1, hhand, hframes [0.25, 0.5] 2 "plate" rfl hplate ?_⟩
  rw [hbefore, List.take_succ_cons, List.take_succ_cons, List.take_zero, List.take_zero]

end ArmServo.Chain
