import ArmServo.Proofs.Pid.Runs

/-!
# The axes do not see each other

Six loops that are asked for something are six single loops, each of which is asked for its own part
of it. This holds of one request, and so of every sequence of them: the six have answers exactly if
every single loop has, and the answers, the integrals and the gains of an axis are those of the loop
of that axis. What the other axes are told plays no part.

Main statement: `axes_are_independent`.
-/

namespace ArmServo.Pid

variable {α : Type}

/-! ## one loop by itself -/

/-- What can be asked of a single loop. -/
inductive Loop.Request (α : Type) where
  | update (error : α) (period : Period)
  | reset
  | timeJump
  | setGains (gains : Gains α)

/-- The part of a request that concerns one axis. -/
def Request.onAxis (k : Axis) : Request α → Loop.Request α
  | .update error period => .update (error.component k.position) period
  | .reset => .reset
  | .timeJump => .timeJump
  | .setGains g => .setGains (g.get k)

namespace Loop

variable [Scalar α]

/-- The output, if an update is asked for, and the loop after a request. An update over no time is
left out, and counts as zero. -/
def perform? (s : Loop α) : Request α → Option (Option α × Loop α)
  | .update error period =>
    if period.isZero then some (some 0, s)
    else (s.update? error period.seconds).map (Prod.map some id)
  | .reset => some (none, s.reset)
  | .timeJump => some (none, s.timeJump)
  | .setGains g => some (none, s.setGains g)

/-- The answers to all requests, and the loop after them. -/
def run? (s : Loop α) : List (Request α) → Option (List (Option α) × Loop α)
  | [] => some ([], s)
  | r :: rest => (s.perform? r).bind fun x => (x.2.run? rest).map (Prod.map (x.1 :: ·) id)

theorem perform?_update (s : Loop α) (error : α) {period : Period} (hp : period.isZero = false) :
    s.perform? (.update error period) =
      (s.update? error period.seconds).map (Prod.map some id) := by
  rw [perform?, hp, if_neg Bool.false_ne_true]

theorem perform?_update_of_isZero (s : Loop α) (error : α) {period : Period}
    (hp : period.isZero = true) : s.perform? (.update error period) = some (some 0, s) := by
  rw [perform?, if_pos hp]

end Loop

/-! ## one request -/

namespace Spatial

variable [Scalar α] [TellsTime α]

/-- What an answer and the loops after it are on one axis. -/
def onAxis (k : Axis) (x : Option (Axes α) × Spatial α) : Option α × Loop α :=
  (x.1.map (·.component k.position), x.2.loop k)

/-- **One request.** What the six do with it, every loop does with its part of it. -/
theorem onAxis_of_perform? {s : Spatial α} {r : Request α} {x : Option (Axes α) × Spatial α}
    (h : s.perform? r = some x) (k : Axis) :
    (s.loop k).perform? (r.onAxis k) = some (onAxis k x) := by
  cases r with
  | update error period =>
    obtain ⟨⟨output, t⟩, ht, rfl⟩ := Option.map_eq_some_iff.mp h
    rw [Request.onAxis]
    cases hp : period.isZero with
    | true =>
      rw [update?_of_isZero s error hp] at ht
      cases ht
      rw [Loop.perform?_update_of_isZero _ _ hp]
      cases k <;> rfl
    | false =>
      rw [Loop.perform?_update _ _ hp, Axes.component_position,
        (update?_eq_some_iff_forall hp).mp ht k, onAxis]
      simp only [Option.map_some, Prod.map, id, Axes.component_position]
  | reset =>
    cases h
    rw [Request.onAxis, Loop.perform?, onAxis, loop_reset, Option.map_none]
  | timeJump =>
    cases h
    rw [Request.onAxis, Loop.perform?, onAxis, loop_timeJump, Option.map_none]
  | setGains g =>
    cases h
    rw [Request.onAxis, Loop.perform?, onAxis, loop_setGains, Option.map_none]

theorem perform?_eq_none_iff {s : Spatial α} {r : Request α} :
    s.perform? r = none ↔ ∃ k, (s.loop k).perform? (r.onAxis k) = none := by
  cases r with
  | update error period =>
    cases hp : period.isZero with
    | true =>
      simp only [perform?_update, update?_of_isZero s error hp, Request.onAxis,
        Loop.perform?_update_of_isZero _ _ hp, Option.map_some, reduceCtorEq, exists_false]
    | false =>
      simp only [perform?_update, Request.onAxis, Loop.perform?_update _ _ hp,
        Option.map_eq_none_iff, Axes.component_position]
      exact update?_eq_none_iff hp
  | reset | timeJump | setGains => exact ⟨nofun, fun ⟨_, hk⟩ => nomatch hk⟩

/-! ## sequences of requests -/

omit [TellsTime α] in
theorem run?_cons (s : Spatial α) (r : Request α) (rest : List (Request α)) :
    s.run? (r :: rest) =
      (s.perform? r).bind fun x => (x.2.run? rest).map (Prod.map (x.1 :: ·) id) := by
  rw [run?]
  cases s.perform? r <;> rfl

/-- **All requests.** The induction is on the requests: after the first of them every loop is the
one of its axis again. -/
theorem onAxis_of_run? {s t : Spatial α} {rs : List (Request α)}
    {answers : List (Option (Axes α))} (h : s.run? rs = some (answers, t)) (k : Axis) :
    (s.loop k).run? (rs.map (·.onAxis k)) =
      some (answers.map (Option.map (·.component k.position)), t.loop k) := by
  induction rs generalizing s answers with
  | nil =>
    cases h
    rfl
  | cons r rest ih =>
    rw [run?_cons] at h
    obtain ⟨x, hx, hrest⟩ := Option.bind_eq_some_iff.mp h
    obtain ⟨⟨later, u⟩, hu, hut⟩ := Option.map_eq_some_iff.mp hrest
    cases hut
    rw [List.map_cons, Loop.run?, onAxis_of_perform? hx k, Option.bind_some, onAxis, ih hu]
    rfl

theorem run?_eq_none_iff {s : Spatial α} {rs : List (Request α)} :
    s.run? rs = none ↔ ∃ k, (s.loop k).run? (rs.map (·.onAxis k)) = none := by
  induction rs generalizing s with
  | nil => exact ⟨nofun, fun ⟨_, hk⟩ => nomatch hk⟩
  | cons r rest ih =>
    rw [run?_cons]
    simp only [List.map_cons, Loop.run?]
    cases hr : s.perform? r with
    | none =>
      obtain ⟨k, hk⟩ := perform?_eq_none_iff.mp hr
      exact iff_of_true rfl ⟨k, by rw [hk, Option.bind_none]⟩
    | some x =>
      simp only [onAxis_of_perform? hr, Option.bind_some, Option.map_eq_none_iff, onAxis]
      exact ih

/-! ## loops that always answer -/

/-- The bounds of the integrals are numbers. -/
def BoundsAreNumbers (g : SpatialGains Float) : Prop := ∀ k, (g.get k).iClamp.isNaN = false

theorem boundsAreNumbers_inForce {g : SpatialGains Float} {r : Request Float}
    (hg : BoundsAreNumbers g) (hr : ∀ g', r = .setGains g' → BoundsAreNumbers g') :
    BoundsAreNumbers (inForce g [r]) := by
  cases r with
  | setGains g' => exact hr g' rfl
  | update | reset | timeJump => exact hg

theorem exists_perform?_of_boundsAreNumbers {s : Spatial Float} (hs : BoundsAreNumbers s.gains)
    (r : Request Float) : ∃ x, s.perform? r = some x := by
  cases r with
  | update error period =>
    rw [perform?_update]
    cases hp : period.isZero with
    | true => exact ⟨_, congrArg _ (update?_of_isZero s error hp)⟩
    | false =>
      cases hu : s.update? error period with
      | none =>
        obtain ⟨k, hk⟩ := (update?_eq_none_iff_isNaN hp).mp hu
        rw [hs k] at hk
        cases hk
      | some y => exact ⟨_, rfl⟩
  | reset | timeJump | setGains => exact ⟨_, rfl⟩

/-- Double precision loops have all their answers as long as no bound fails to be a number. -/
theorem exists_run?_of_boundsAreNumbers {s : Spatial Float} {rs : List (Request Float)}
    (hs : BoundsAreNumbers s.gains) (hrs : ∀ g, .setGains g ∈ rs → BoundsAreNumbers g) :
    ∃ x, s.run? rs = some x := by
  induction rs generalizing s with
  | nil => exact ⟨_, rfl⟩
  | cons r rest ih =>
    obtain ⟨⟨answer, t⟩, ht⟩ := exists_perform?_of_boundsAreNumbers hs r
    have hgains : BoundsAreNumbers t.gains := by
      rw [gains_of_perform? ht]
      refine boundsAreNumbers_inForce hs fun g' hg' => hrs g' ?_
      rw [hg']
      exact List.mem_cons_self
    obtain ⟨x, hx⟩ := ih hgains fun g hg => hrs g (List.mem_cons_of_mem _ hg)
    rw [run?_cons, ht, Option.bind_some, hx]
    exact ⟨_, rfl⟩

/-! ## the main statement -/

/-- **The axes are independent.** The axes have the components of a six-vector in the order of their
names, and the loop in the place of axis `k` has its gains. Six loops that are asked for one thing
after the other are six single loops, the one of axis `k` asked for component `k` each time: if all
of these have their answers, the answers of the six, their integrals and their gains are those of the
single loops, and the gains are those put in force last. So nothing that is asked of other axes plays
a part on axis `k`. In double precision all loops have their answers unless the bound of an integral
is not a number. -/
theorem axes_are_independent :
    (Axis.all.map fun k => (k.name, k.position)) = [("trans_x", 0), ("trans_y", 1), ("trans_z", 2),
      ("rot_x", 3), ("rot_y", 4), ("rot_z", 5)] ∧
    (∀ (α : Type) [Scalar α] [TellsTime α],
      (∀ g : SpatialGains α, (ofGains g).gains = g ∧
        ∀ k : Axis, (ofGains g).loops.get k.position = .ofGains (g.get k)) ∧
      (∀ (s : Spatial α) g, (s.setGains g).gains = g ∧
        ∀ k : Axis,
          (s.setGains g).loops.get k.position = (s.loops.get k.position).setGains (g.get k)) ∧
      (∀ (s : Spatial α) (rs : List (Request α)),
        (s.run? rs = none ↔
          ∃ k : Axis, (s.loops.get k.position).run? (rs.map (·.onAxis k)) = none) ∧
        ∀ answers t, s.run? rs = some (answers, t) →
          t.gains = inForce s.gains rs ∧
          ∀ k : Axis, ∃ l, (s.loops.get k.position).run? (rs.map (·.onAxis k)) =
              some (answers.map (Option.map (·.component k.position)), l) ∧
            t.loops.get k.position = l ∧ t.integrals.component k.position = l.integral ∧
            t.gains.get k = l.gains) ∧
      ∀ (s s' : Spatial α) (rs rs' : List (Request α)) (k : Axis),
        s.loops.get k.position = s'.loops.get k.position →
        rs.map (·.onAxis k) = rs'.map (·.onAxis k) →
        ∀ answers t answers' t', s.run? rs = some (answers, t) →
          s'.run? rs' = some (answers', t') →
            answers.map (Option.map (·.component k.position)) =
              answers'.map (Option.map (·.component k.position)) ∧
            t.loops.get k.position = t'.loops.get k.position) ∧
    ∀ (s : Spatial Float) (rs : List (Request Float)), BoundsAreNumbers s.gains →
      (∀ g, .setGains g ∈ rs → BoundsAreNumbers g) → ∃ x, s.run? rs = some x := by
  refine ⟨rfl, fun α _ _ => ⟨fun g => ⟨gains_ofGains g, loop_ofGains g⟩,
    fun s g => ⟨gains_setGains s g, loop_setGains s g⟩, fun s rs => ?_, ?_⟩,
    fun s rs => exists_run?_of_boundsAreNumbers⟩
  · refine ⟨run?_eq_none_iff, fun answers t h => ⟨gains_of_run? h, fun k => ?_⟩⟩
    refine ⟨_, onAxis_of_run? h k, rfl, ?_, get_gains ..⟩
    rw [Axes.component_position, get_integrals]
  · intro s s' rs rs' k hloop hrs answers t answers' t' h h'
    have hk := onAxis_of_run? h k
    rw [show s.loop k = s'.loop k from hloop, hrs, onAxis_of_run? h' k] at hk
    obtain ⟨hanswers, hloops⟩ := Prod.mk.inj (Option.some.inj hk)
    exact ⟨hanswers.symm, hloops.symm⟩

/-- An error along the first axis, an update over no time, new gains and one more update. What the
other axes are told depends on `e` and `g`. -/
def nudge (e : Float) (g : Gains Float) : List (Request Float) :=
  [.update ⟨2.0, e, e, e, e, e⟩ ⟨1000000000⟩, .update (.uniform 2.0) .zero,
   .setGains ⟨⟨3.0, 0.0, 0.0, 5.0⟩, g, g, g, g, g⟩, .update ⟨1.0, e, e, e, e, e⟩ ⟨1000000000⟩]

theorem map_onAxis_nudge (e : Float) (g : Gains Float) :
    (nudge e g).map (·.onAxis .transX) =
      [.update 2.0 ⟨1000000000⟩, .update 2.0 .zero, .setGains ⟨3.0, 0.0, 0.0, 5.0⟩,
        .update 1.0 ⟨1000000000⟩] := rfl

theorem boundsAreNumbers_of_mem_nudge {e : Float} {g : Gains Float} {gs : SpatialGains Float}
    (hg : g.iClamp.isNaN = false) (h : .setGains gs ∈ nudge e g) : BoundsAreNumbers gs := by
  simp only [nudge, List.mem_cons, reduceCtorEq, Request.setGains.injEq, List.not_mem_nil,
    false_or, or_false] at h
  intro k
  cases h
  cases k with
  | transX => exact (show (5.0 : Float).isNaN = false by decide +kernel)
  | transY | transZ | rotX | rotY | rotZ => exact hg

/-- Whatever the other axes are told, the first one answers as a single loop does. -/
theorem nudge_along_first_axis :
    ∃ answers t answers' t',
      (ofGains (.uniform ⟨1.0, 0.5, 0.0, 5.0⟩)).run? (nudge 0.0 .zero) = some (answers, t) ∧
      (ofGains (.uniform ⟨1.0, 0.5, 0.0, 5.0⟩)).run? (nudge 7.0 ⟨9.0, 9.0, 9.0, 9.0⟩) =
        some (answers', t') ∧
      answers.map (Option.map (·.component 0)) = [some 3.0, some 0.0, none, some 3.0] ∧
      answers'.map (Option.map (·.component 0)) = [some 3.0, some 0.0, none, some 3.0] ∧
      t.integrals.component 0 = 3.0 ∧ t.loops.get 0 = t'.loops.get 0 := by
  obtain ⟨-, hgeneral, hnumbers⟩ := axes_are_independent
  obtain ⟨hnew, -, hrun, htwo⟩ := hgeneral Float
  have hbounds : BoundsAreNumbers
      (ofGains (.uniform (⟨1.0, 0.5, 0.0, 5.0⟩ : Gains Float))).gains := fun k => by
    rw [(hnew _).1, SpatialGains.get_uniform]
    decide +kernel
  obtain ⟨⟨answers, t⟩, h⟩ := hnumbers _ (nudge 0.0 .zero) hbounds fun _ hgs =>
    boundsAreNumbers_of_mem_nudge (by decide +kernel) hgs
  obtain ⟨⟨answers', t'⟩, h'⟩ := hnumbers _ (nudge 7.0 ⟨9.0, 9.0, 9.0, 9.0⟩) hbounds fun _ hgs =>
    boundsAreNumbers_of_mem_nudge (by decide +kernel) hgs
  obtain ⟨hanswers, hloops⟩ := htwo _ _ _ _ .transX rfl
    ((map_onAxis_nudge ..).trans (map_onAxis_nudge ..).symm) _ _ _ _ h h'
  obtain ⟨l, hl, -, hintegral, -⟩ := ((hrun _ _).2 _ _ h).2 .transX
  have hsingle : (Loop.ofGains (⟨1.0, 0.5, 0.0, 5.0⟩ : Gains Float)).run?
      [.update 2.0 ⟨1000000000⟩, .update 2.0 .zero, .setGains ⟨3.0, 0.0, 0.0, 5.0⟩,
        .update 1.0 ⟨1000000000⟩] =
      some ([some 3.0, some 0.0, none, some 3.0], ⟨⟨3.0, 0.0, 0.0, 5.0⟩, 3.0, 1.0⟩) := by
    decide +kernel
  rw [(hnew _).2, map_onAxis_nudge, SpatialGains.get_uniform, hsingle] at hl
  obtain ⟨hlist, rfl⟩ := Prod.mk.inj (Option.some.inj hl)
  exact ⟨answers, t, answers', t', h, h', hlist.symm, hanswers ▸ hlist.symm, hintegral, hloops⟩

end Spatial

end ArmServo.Pid
