import ArmServo.Proofs.Pid.Runs

/-!
# What recovery forgets

A reset makes the loops as they are at first with the gains in force. After a time jump only the
last errors are missing, and only the first update that takes time looks at them: its outputs differ
in their derivative terms, and from then on nothing tells the loops apart. A reset and another time
jump settle the difference too.

Main statement: `recovery_forgets`.
-/

namespace ArmServo.Pid

variable {α : Type}

/-! ## requests that settle the last errors -/

/-- No last error from before plays a part after this request. -/
def Request.settles : Request α → Bool
  | .update _ period => !period.isZero
  | .reset | .timeJump => true
  | .setGains _ => false

/-- The request at place `i` is the first update that takes time, and nothing has settled the last
errors before it. -/
def IsFirstUpdate (rs : List (Request α)) (i : Nat) (error : Axes α) (period : Period) : Prop :=
  rs[i]? = some (.update error period) ∧ period.isZero = false ∧
    ∀ r ∈ rs.take i, r.settles = false

theorem isFirstUpdate_zero {r : Request α} {rest : List (Request α)} {error : Axes α}
    {period : Period} : IsFirstUpdate (r :: rest) 0 error period ↔
      r = .update error period ∧ period.isZero = false := by
  simp [IsFirstUpdate]

theorem isFirstUpdate_succ {r : Request α} {rest : List (Request α)} {i : Nat} {error : Axes α}
    {period : Period} : IsFirstUpdate (r :: rest) (i + 1) error period ↔
      r.settles = false ∧ IsFirstUpdate rest i error period := by
  simp only [IsFirstUpdate, List.getElem?_cons_succ, List.take_succ_cons, List.forall_mem_cons]
  tauto

/-! ## one request with and without the last errors -/

namespace Spatial

variable [Scalar α]

def lastErrors (s : Spatial α) : Axes α := .ofComponents fun i => (s.loops.get i).lastError

omit [Scalar α] in
@[simp] theorem get_lastErrors (s : Spatial α) (k : Axis) :
    s.lastErrors.get k = (s.loop k).lastError :=
  Axes.get_ofComponents ..

section TimeJump

variable (s : Spatial α)

theorem reset_timeJump : s.timeJump.reset = s.reset :=
  ext_loop fun k => by rw [loop_reset, loop_timeJump, loop_reset]; rfl

theorem timeJump_timeJump : s.timeJump.timeJump = s.timeJump :=
  ext_loop fun k => by rw [loop_timeJump, loop_timeJump]; rfl

theorem setGains_timeJump (g : SpatialGains α) :
    s.timeJump.setGains g = (s.setGains g).timeJump :=
  ext_loop fun k => by rw [loop_setGains, loop_timeJump, loop_timeJump, loop_setGains]; rfl

theorem integrals_timeJump : s.timeJump.integrals = s.integrals :=
  Axes.ext_get fun k => by rw [get_integrals, get_integrals, loop_timeJump, Loop.timeJump]

omit [Scalar α] in
theorem lastErrors_setGains (g : SpatialGains α) : (s.setGains g).lastErrors = s.lastErrors :=
  Axes.ext_get fun k => by rw [get_lastErrors, get_lastErrors, loop_setGains, Loop.setGains]

end TimeJump

/-- Two outputs of one update that differ in their derivative terms only: in `output` the last
errors count, in `output'` they have been forgotten. -/
def DifferInDerivative (g : SpatialGains α) (error last : Axes α) (period : Period)
    (output output' : Axes α) : Prop :=
  ∃ integral : Axes α, ∀ k,
    output.get k = (g.get k).output (error.get k) (integral.get k) (last.get k) period.seconds ∧
    output'.get k = (g.get k).output (error.get k) (integral.get k) 0 period.seconds

/-- What two answers to a request that settles the last errors have in common. -/
structure Settled (s : Spatial α) (r : Request α) (answer answer' : Option (Axes α)) : Prop where
  other : (∀ error period, r ≠ .update error period) → answer = answer'
  update : ∀ error period, r = .update error period → ∃ output output', answer = some output ∧
    answer' = some output' ∧ DifferInDerivative s.gains error s.lastErrors period output output'

variable [TellsTime α]

theorem update?_timeJump (s : Spatial α) (error : Axes α) {period : Period}
    (hp : period.isZero = false) :
    Option.Rel (fun a b => a.2 = b.2 ∧
        DifferInDerivative s.gains error s.lastErrors period a.1 b.1)
      (s.update? error period) (s.timeJump.update? error period) := by
  cases hu : s.update? error period with
  | none =>
    have hnone : s.timeJump.update? error period = none := by
      simp only [update?_eq_none_iff hp, Loop.update?_eq, Option.map_eq_none_iff,
        loop_timeJump] at hu ⊢
      exact hu
    rw [hnone]
    exact .none
  | some a =>
    obtain ⟨output, t⟩ := a
    have haxes := (update?_eq_some_iff hp).mp hu
    have hsome : s.timeJump.update? error period = some (.ofFn fun k =>
        (s.loop k).gains.output (error.get k) (t.loop k).integral 0 period.seconds,
        t) := by
      refine (update?_eq_some_iff hp).mpr fun k => ?_
      obtain ⟨hintegral, hgains, hlast, -⟩ := haxes k
      rw [loop_timeJump, Axes.get_ofFn]
      exact ⟨hintegral, hgains, hlast, rfl⟩
    rw [hsome]
    refine .some ⟨rfl, t.integrals, fun k => ?_⟩
    obtain ⟨-, -, -, houtput⟩ := haxes k
    rw [Axes.get_ofFn, get_gains, get_lastErrors, get_integrals]
    exact ⟨houtput, rfl⟩

/-- After a request that settles the last errors nothing tells the loops apart. -/
theorem perform?_timeJump_of_settles (s : Spatial α) {r : Request α} (hr : r.settles = true) :
    Option.Rel (fun a b => a.2 = b.2 ∧ s.Settled r a.1 b.1) (s.perform? r)
      (s.timeJump.perform? r) := by
  cases r with
  | update error period =>
    have hp : period.isZero = false := (Bool.not_eq_true' _).mp hr
    have hrel := s.update?_timeJump error hp
    rw [perform?_update, perform?_update]
    generalize s.update? error period = x, s.timeJump.update? error period = y at hrel ⊢
    cases hrel with
    | none => exact .none
    | @some a b hab =>
      refine .some ⟨hab.1, fun hne => (hne error period rfl).elim, ?_⟩
      rintro _ _ ⟨⟩
      exact ⟨_, _, rfl, rfl, hab.2⟩
  | reset => exact .some ⟨s.reset_timeJump.symm, fun _ => rfl, nofun⟩
  | timeJump => exact .some ⟨s.timeJump_timeJump.symm, fun _ => rfl, nofun⟩
  | setGains => cases hr

/-- Any other request leaves the last errors as they are, and the integrals too. -/
theorem perform?_timeJump_of_not_settles (s : Spatial α) {r : Request α} (hr : r.settles = false) :
    s.timeJump.perform? r = (s.perform? r).map (Prod.map id timeJump) := by
  cases r with
  | update error period =>
    have hp : period.isZero = true := (Bool.not_eq_false' _).mp hr
    rw [perform?_update, perform?_update, update?_of_isZero _ _ hp, update?_of_isZero _ _ hp]
    rfl
  | reset | timeJump => cases hr
  | setGains g => exact congrArg (fun t => some (none, t)) (s.setGains_timeJump g)

theorem lastErrors_of_perform? {s t : Spatial α} {r : Request α} {answer : Option (Axes α)}
    (hr : r.settles = false) (h : s.perform? r = some (answer, t)) :
    t.lastErrors = s.lastErrors := by
  cases r with
  | update error period =>
    have hp : period.isZero = true := (Bool.not_eq_false' _).mp hr
    rw [perform?_update, update?_of_isZero _ _ hp] at h
    cases h
    rfl
  | reset | timeJump => cases hr
  | setGains g =>
    cases h
    exact s.lastErrors_setGains g

/-! ## runs with and without the last errors -/

/-- What two runs have in common of which the second one starts without the last errors of `s`. -/
structure Alike (s : Spatial α) (rs : List (Request α))
    (a b : List (Option (Axes α)) × Spatial α) : Prop where
  gains : a.2.gains = b.2.gains
  integrals : a.2.integrals = b.2.integrals
  /-- Nothing tells the loops apart once the last errors are settled. -/
  settled : (∃ r ∈ rs, r.settles = true) → a.2 = b.2
  /-- No other answer than that to the first update that takes time is different. -/
  others : ∀ i, (∀ error period, ¬ IsFirstUpdate rs i error period) → a.1[i]? = b.1[i]?
  first : ∀ i error period, IsFirstUpdate rs i error period → ∃ output output',
    a.1[i]? = some (some output) ∧ b.1[i]? = some (some output') ∧
      DifferInDerivative (inForce s.gains (rs.take i)) error s.lastErrors period output output'

omit [TellsTime α] in
/-- The first request settles the last errors, and the rest of the two runs is one. -/
theorem Settled.alike {s : Spatial α} {r : Request α} {answer answer' : Option (Axes α)}
    (h : s.Settled r answer answer') (hr : r.settles = true) (rest : List (Request α))
    (later : List (Option (Axes α))) (t : Spatial α) :
    s.Alike (r :: rest) (answer :: later, t) (answer' :: later, t) := by
  refine ⟨rfl, rfl, fun _ => rfl, fun i hi => ?_, fun i error period hi => ?_⟩
  · cases i with
    | zero =>
      refine congrArg some (h.other fun error period he => hi error period ?_)
      rw [isFirstUpdate_zero]
      refine ⟨he, ?_⟩
      rw [he] at hr
      exact (Bool.not_eq_true' _).mp hr
    | succ i => rfl
  · cases i with
    | zero =>
      obtain ⟨output, output', rfl, rfl, hdiffer⟩ :=
        h.update error period (isFirstUpdate_zero.mp hi).1
      exact ⟨output, output', rfl, rfl, hdiffer⟩
    | succ i =>
      rw [isFirstUpdate_succ, hr] at hi
      cases hi.1

/-- The first request does not, and the rest of the two runs is alike. -/
theorem Alike.cons {s t : Spatial α} {r : Request α} {rest : List (Request α)}
    {a b : List (Option (Axes α)) × Spatial α} (h : t.Alike rest a b) (hr : r.settles = false)
    {answer : Option (Axes α)} (hs : s.perform? r = some (answer, t)) :
    s.Alike (r :: rest) (answer :: a.1, a.2) (answer :: b.1, b.2) := by
  refine ⟨h.gains, h.integrals, ?_, fun i hi => ?_, fun i error period hi => ?_⟩
  · rintro ⟨r', hr', hsettles⟩
    rcases List.mem_cons.mp hr' with rfl | hr'
    · rw [hr] at hsettles
      cases hsettles
    · exact h.settled ⟨r', hr', hsettles⟩
  · cases i with
    | zero => rfl
    | succ i =>
      refine h.others i fun error period hfirst => hi error period ?_
      exact isFirstUpdate_succ.mpr ⟨hr, hfirst⟩
  · cases i with
    | zero =>
      obtain ⟨rfl, hp⟩ := isFirstUpdate_zero.mp hi
      rw [Request.settles, hp] at hr
      cases hr
    | succ i =>
      obtain ⟨output, output', ha, hb, hdiffer⟩ :=
        h.first i error period (isFirstUpdate_succ.mp hi).2
      rw [gains_of_perform? hs, ← inForce_cons, lastErrors_of_perform? hr hs] at hdiffer
      exact ⟨output, output', ha, hb, hdiffer⟩

/-- **What a time jump forgets.** The induction is on the requests: up to the first one that settles
the last errors the second run is the first one after a time jump, and behind it the two are one. -/
theorem alike_of_timeJump (s : Spatial α) (rs : List (Request α)) :
    Option.Rel (s.Alike rs) (s.run? rs) (s.timeJump.run? rs) := by
  induction rs generalizing s with
  | nil =>
    refine .some ⟨s.gains_timeJump.symm, s.integrals_timeJump.symm, fun h => ?_, fun _ _ => rfl,
      fun i _ _ h => ?_⟩
    · obtain ⟨r, hr, -⟩ := h
      cases hr
    · cases h.1
  | cons r rest ih =>
    unfold run?
    cases hr : r.settles with
    | true =>
      have hrel := s.perform?_timeJump_of_settles hr
      generalize s.perform? r = x, s.timeJump.perform? r = y at hrel ⊢
      cases hrel with
      | none => exact .none
      | @some a b hab =>
        obtain ⟨answer, t⟩ := a
        obtain ⟨answer', t'⟩ := b
        obtain ⟨rfl, hsettled⟩ := hab
        dsimp only
        cases t.run? rest with
        | none => exact .none
        | some later => exact .some (hsettled.alike hr rest later.1 later.2)
    | false =>
      rw [perform?_timeJump_of_not_settles s hr]
      cases ha : s.perform? r with
      | none => exact .none
      | some a =>
        obtain ⟨answer, t⟩ := a
        have hrest := ih t
        dsimp only [Option.map_some, Prod.map]
        generalize t.run? rest = x, t.timeJump.run? rest = y at hrest ⊢
        cases hrest with
        | none => exact .none
        | some hab => exact .some (hab.cons hr ha)

/-! ## the main statement -/

omit [TellsTime α] in
theorem reset_eq_ofGains (s : Spatial α) : s.reset = ofGains s.gains :=
  ext_loop fun k => by rw [loop_reset, loop_ofGains, get_gains, Loop.reset, Loop.ofGains]

/-- Over the real numbers the difference is the derivative of the last error. -/
theorem DifferInDerivative.sub_eq {g : SpatialGains ℝ} {error last output output' : Axes ℝ}
    {period : Period} (h : DifferInDerivative g error last period output output') (k : Axis) :
    output'.get k - output.get k = (g.get k).d * last.get k / period.seconds := by
  obtain ⟨integral, hk⟩ := h
  rw [(hk k).1, (hk k).2, Gains.output, Gains.output]
  ring

/-- **What recovery forgets.** Whatever has happened to the loops, a reset makes them those of the
gains in force, so that they answer as new ones do. A time jump leads to runs that are alike: both
go on or neither does, gains and integrals agree, and so do all answers but that to the first update
that takes time, if nothing settles the last errors before it. Its outputs differ in their
derivative terms only, over the real numbers by `d e / dt` for the last error `e`; after it the
loops are the same. -/
theorem recovery_forgets :
    (∀ (α : Type) [Scalar α] [TellsTime α],
      (∀ (g : SpatialGains α) (rs : List (Request α)) answers s,
        (ofGains g).run? rs = some (answers, s) →
          s.gains = inForce g rs ∧ s.reset = ofGains (inForce g rs) ∧
          ∀ later, s.reset.run? later = (ofGains (inForce g rs)).run? later) ∧
      ∀ (s : Spatial α) later,
        Option.Rel (s.Alike later) (s.run? later) (s.timeJump.run? later)) ∧
    ∀ (s : Spatial ℝ) later a b i error period, s.run? later = some a →
      s.timeJump.run? later = some b → IsFirstUpdate later i error period →
        ∃ output output', a.1[i]? = some (some output) ∧ b.1[i]? = some (some output') ∧
          ∀ k, output'.get k - output.get k =
            ((inForce s.gains (later.take i)).get k).d * s.lastErrors.get k / period.seconds := by
  refine ⟨fun α _ _ => ⟨fun g rs answers s hs => ?_, alike_of_timeJump⟩, ?_⟩
  · have hgains : s.gains = inForce g rs := by rw [gains_of_run? hs, gains_ofGains]
    have hreset := s.reset_eq_ofGains
    rw [hgains] at hreset
    exact ⟨hgains, hreset, fun later => by rw [hreset]⟩
  · intro s later a b i error period ha hb hfirst
    have hrel := s.alike_of_timeJump later
    rw [ha, hb] at hrel
    cases hrel with
    | some halike =>
      obtain ⟨output, output', hoa, hob, hdiffer⟩ := halike.first i error period hfirst
      exact ⟨output, output', hoa, hob, hdiffer.sub_eq⟩

/-- Loops with a gain on the derivative only that were one unit off at the last update. -/
noncomputable def shaken : Spatial ℝ := ⟨.replicate 6 ⟨⟨0, 0, 1, 0⟩, 0, 1⟩⟩

theorem loop_shaken (k : Axis) : shaken.loop k = ⟨⟨0, 0, 1, 0⟩, 0, 1⟩ := by simp [shaken, loop]

/-- A second after a time jump that unit is missing on every axis; loops that have been reset are
new. -/
theorem shaken_recovers :
    (∃ answers s, (ofGains (.uniform ⟨1.0, 1.0, 0.0, 5.0⟩)).run?
        [.update (.uniform 2.0) ⟨1000000000⟩, .setGains (.uniform .zero)] = some (answers, s) ∧
      s.reset = (ofGains (.uniform .zero) : Spatial Float)) ∧
    ∃ a b output output', shaken.run? [.update (.uniform 1) ⟨1000000000⟩] = some a ∧
      shaken.timeJump.run? [.update (.uniform 1) ⟨1000000000⟩] = some b ∧
      a.1[0]? = some (some output) ∧ b.1[0]? = some (some output') ∧
      ∀ k, output'.get k - output.get k = 1 := by
  obtain ⟨hboth, hreal⟩ := recovery_forgets
  constructor
  · obtain ⟨⟨answers, s⟩, hs⟩ := Option.isSome_iff_exists.mp
      (show ((ofGains (.uniform ⟨1.0, 1.0, 0.0, 5.0⟩) : Spatial Float).run?
        [.update (.uniform 2.0) ⟨1000000000⟩, .setGains (.uniform .zero)]).isSome by decide +kernel)
    exact ⟨answers, s, hs, ((hboth Float).1 _ _ _ _ hs).2.1⟩
  · have hp : Period.isZero ⟨1000000000⟩ = false := rfl
    obtain ⟨x, hx⟩ := shaken.exists_update? (.uniform 1) hp
    obtain ⟨y, hy⟩ := shaken.timeJump.exists_update? (.uniform 1) hp
    have ha : shaken.run? [.update (.uniform 1) ⟨1000000000⟩] = some ([some x.1], x.2) := by
      rw [run?, perform?_update, hx]
      rfl
    have hb : shaken.timeJump.run? [.update (.uniform 1) ⟨1000000000⟩] =
        some ([some y.1], y.2) := by
      rw [run?, perform?_update, hy]
      rfl
    obtain ⟨output, output', hoa, hob, hk⟩ :=
      hreal shaken _ _ _ 0 _ _ ha hb (isFirstUpdate_zero.mpr ⟨rfl, hp⟩)
    refine ⟨_, _, output, output', ha, hb, hoa, hob, fun k => (hk k).trans ?_⟩
    have hsecond : (Period.seconds ⟨1000000000⟩ : ℝ) = 1 := by
      norm_num [Period.seconds, Period.wholeSeconds, Period.restNanos, Period.nanosPerSecond]
    have hgain : ((inForce shaken.gains []).get k).d = 1 := by rw [inForce, get_gains, loop_shaken]
    have hlast : shaken.lastErrors.get k = 1 := by rw [get_lastErrors, loop_shaken]
    rw [List.take_zero, hgain, hlast, hsecond]
    norm_num

end Spatial

end ArmServo.Pid
