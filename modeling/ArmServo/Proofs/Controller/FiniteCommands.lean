import Mathlib
import ArmServo.Proofs.Controller.Atomicity
import ArmServo.Proofs.Controller.Lifecycle
import ArmServo.Proofs.Controller.LimitSafety
import ArmServo.Proofs.Motion.Overflow

/-!
# Finite commands

Errors and outputs of the loops are refused unless they are finite; what is made of them afterwards is
not tested. If the joints are measured finite at every start, commands are finite unless the period
that has made the motion has left the range of doubles, and then they are not. Positions between
finite limits are finite unless a joint was to be moved by what is not a number.

Main statement: `commands_are_finite_or_overflowed`.
-/

namespace ArmServo

/-! ## one order -/

namespace Core

section Renewal

variable {J α : Type} [Scalar α]

/-- The order makes a new motion if it succeeds: from the joints, or by a period. -/
def Renews (c : Core α J) (o : Order α) : Prop :=
  o = .start ∨ o.isPeriod = true ∧ c.mode = .running

theorem Advances.motion_of_error {c d : Core α J} {error : Axes α} {period : Period}
    {solve : TaskSpace.Method α} {f : Failure α} (h : c.Advances error period solve (.error f) d) :
    d.motion = c.motion := by
  cases h with
  | noTime | badError | unbounded | badOutput => rfl
  | notMoved _ _ _ _ hs => exact hs.motion_of_error

theorem motion_obeyed {c : Core α J} {measured : List (α × α)} {o : Order α}
    {solve : TaskSpace.Method α}
    (h : (c.obeyed measured o solve).1 = .ok () → ¬ c.Renews o) :
    (c.obeyed measured o solve).2.motion = c.motion := by
  cases o with
  | start =>
    unfold obeyed at h ⊢
    cases hs : c.solver.start? measured with
    | error e => rfl
    | ok solver =>
      rw [hs] at h
      exact absurd (.inl rfl) (h rfl)
  | compute error period | tick error period =>
    unfold obeyed at h ⊢
    cases hm : c.mode with
    | paused => rfl
    | running =>
      rw [hm] at h
      have ha := c.advanced_advances error period solve
      dsimp only at h ⊢
      generalize c.advanced error period solve = advanced at ha h ⊢
      obtain ⟨r, d⟩ := advanced
      cases r with
      | error f => exact ha.motion_of_error
      | ok => exact absurd (.inr ⟨rfl, hm⟩) (h rfl)
  | _ => rfl

end Renewal

variable {J : Type}

/-- A period of the core leaves the range of doubles. -/
def Overflows (c : Core Float J) (kind : CommandKind) (error : Axes Float) (period : Period)
    (solve : TaskSpace.Method Float) : Prop :=
  ∃ input pid, c.pid.update? error period = some (input, pid) ∧
    c.solver.Overflows kind period input solve

theorem Advances.isFinite_commands_iff {c d : Core Float J} {error : Axes Float} {period : Period}
    {solve : TaskSpace.Method Float} (h : c.Advances error period solve (.ok ()) d)
    (hs : c.solver.Shaped) (kind : CommandKind) :
    (∀ x ∈ d.motion.commands kind, x.isFinite = true) ↔ ¬ c.Overflows kind error period solve := by
  cases h with
  | @moved input pid _ _ _ hu _ hstep =>
    refine (hstep.isFinite_commands_iff hs kind).trans ⟨?_, ?_⟩
    · rintro hnone ⟨input', pid', hu', hover⟩
      cases hu.symm.trans hu'
      exact hnone hover
    · exact fun hnone hover => hnone ⟨input, pid, hu, hover⟩

end Core

namespace Station

variable {H J : Type} [JointBus H J Float]

/-! ## refused inputs -/

theorem answer_of_period {s : Station H J Float} {c : Core Float J}
    (hc : s.controller.core = some c) (hm : c.mode = .running) {error : Axes Float}
    {period : Period} (solve : TaskSpace.Method Float) {o : Order Float}
    (ho : o = .compute error period ∨ o = .tick error period) :
    (s.obey o solve).1 = (c.advanced error period solve).1 := by
  rw [obey_of_core hc]
  exact congrArg Prod.fst (Core.obeyed_of_period hm ho _ solve)

theorem obey_of_error_not_finite {s : Station H J Float} {c : Core Float J}
    (hc : s.controller.core = some c) (hm : c.mode = .running) {error : Axes Float}
    {period : Period} (hp : period.isZero = false) (he : error.isFinite = false)
    (solve : TaskSpace.Method Float) {o : Order Float}
    (ho : o = .compute error period ∨ o = .tick error period) :
    s.obey o solve = (.error (.refused (.nonFinite .cartesianError)), s) ∧ s.sent o solve = [] := by
  have hanswer : (s.obey o solve).1 = .error (.refused (.nonFinite .cartesianError)) := by
    rw [answer_of_period hc hm solve ho, Core.advanced, hp, he]
    rfl
  obtain ⟨hkept, hsent⟩ := obey_of_refused hanswer
  exact ⟨Prod.ext hanswer hkept, hsent⟩

theorem obey_of_output_not_finite {s : Station H J Float} {c : Core Float J}
    (hc : s.controller.core = some c) (hm : c.mode = .running) {error : Axes Float}
    {period : Period} (hp : period.isZero = false) (he : error.isFinite = true)
    {input : Axes Float} {pid : Pid.Spatial Float}
    (hu : c.pid.update? error period = some (input, pid)) (hi : input.isFinite = false)
    (solve : TaskSpace.Method Float) {o : Order Float}
    (ho : o = .compute error period ∨ o = .tick error period) :
    s.obey o solve = (.error (.refused (.nonFinite .pidOutput)), s) ∧ s.sent o solve = [] := by
  have hanswer : (s.obey o solve).1 = .error (.refused (.nonFinite .pidOutput)) := by
    rw [answer_of_period hc hm solve ho, Core.advanced, hp, he, hu]
    simp only [hi]
    rfl
  obtain ⟨hkept, hsent⟩ := obey_of_refused hanswer
  exact ⟨Prod.ext hanswer hkept, hsent⟩

/-! ## runs -/

/-- All joints of the controller, if it has any, are measured finite. -/
def MeasuresFinite (s : Station H J Float) : Prop :=
  ∀ c ∈ s.controller.core, ∀ x ∈ c.measured s.hardware,
    x.1.isFinite = true ∧ x.2.isFinite = true

instance (s : Station H J Float) : Decidable s.MeasuresFinite :=
  inferInstanceAs (Decidable (∀ c ∈ s.controller.core, ∀ x ∈ c.measured s.hardware,
    x.1.isFinite = true ∧ x.2.isFinite = true))

/-- Whenever a controller is started in the course of a run, all its joints are measured finite. -/
def FiniteWhenStarted (s : Station H J Float) (events : List (Event H Float))
    (solve : TaskSpace.Method Float) : Prop :=
  ∀ before rest, events = before ++ .order .start :: rest → (s.after before solve).MeasuresFinite

/-- A run whose motion has been made by a period that has left the range of doubles. -/
inductive Overflowed (s : Station H J Float) (solve : TaskSpace.Method Float) :
    List (Event H Float) → Prop
  | moved {events : List (Event H Float)} {o : Order Float} {error : Axes Float} {period : Period}
    {c : Core Float J} (ho : o = .compute error period ∨ o = .tick error period)
    (hc : (s.after events solve).controller.core = some c) (hm : c.mode = .running)
    (hr : ((s.after events solve).obey o solve).1 = .ok ())
    (hover : c.Overflows s.controller.writes error period solve) :
    Overflowed s solve (events ++ [.order o])
  | kept {events : List (Event H Float)} {e : Event H Float} (h : Overflowed s solve events)
    (he : ∀ o c, e = .order o → (s.after events solve).controller.core = some c →
      ((s.after events solve).obey o solve).1 = .ok () → ¬ c.Renews o) :
    Overflowed s solve (events ++ [e])

theorem finiteWhenStarted_concat {s : Station H J Float} {events : List (Event H Float)}
    {solve : TaskSpace.Method Float} {e : Event H Float} :
    s.FiniteWhenStarted (events ++ [e]) solve ↔ s.FiniteWhenStarted events solve ∧
      (e = .order .start → (s.after events solve).MeasuresFinite) := by
  constructor
  · refine fun h => ⟨fun before rest hevents => h before (rest ++ [e]) ?_, ?_⟩
    · rw [hevents, List.append_assoc, List.cons_append]
    · rintro rfl
      exact h events [] rfl
  · rintro ⟨h, he⟩ before rest hevents
    obtain rfl | ⟨rest, last, rfl⟩ := List.eq_nil_or_concat rest
    · obtain ⟨rfl, hlast⟩ := List.append_inj' hevents rfl
      exact he (List.cons.inj hlast).1
    · rw [List.concat_eq_append, ← List.cons_append, ← List.append_assoc] at hevents
      exact h before rest (List.append_inj' hevents rfl).1

/-- For a run that starts the controller once it is enough to measure the joints then. -/
theorem finiteWhenStarted_once {s : Station H J Float} {config : Config Float} {o : Order Float}
    {solve : TaskSpace.Method Float} (ho : o ≠ .start)
    (h : (s.after [.order (.configure config)] solve).MeasuresFinite) :
    s.FiniteWhenStarted ([.order (.configure config), .order .start] ++ [.order o]) solve := by
  have hnone : s.FiniteWhenStarted [] solve := fun _ _ hevents => absurd hevents (by simp)
  have hconfigured : s.FiniteWhenStarted ([] ++ [.order (.configure config)]) solve :=
    finiteWhenStarted_concat.mpr ⟨hnone, fun he => nomatch he⟩
  have hstarted : s.FiniteWhenStarted ([.order (.configure config)] ++ [.order .start]) solve :=
    finiteWhenStarted_concat.mpr ⟨hconfigured, fun _ => h⟩
  refine finiteWhenStarted_concat.mpr ⟨hstarted, ?_⟩
  rintro ⟨⟩
  exact absurd rfl ho

theorem isFinite_commands_of_buildCore? {writes : CommandKind} {h : H}
    {config : Config Float} {c : Core Float J} (hb : buildCore? writes h config = .ok c)
    (kind : CommandKind) : ∀ x ∈ c.motion.commands kind, x.isFinite = true := by
  obtain ⟨-, -, chain, handles, solver, -, -, hsolver, rfl⟩ := buildCore?_eq_ok.mp hb
  obtain rfl := Solver.eq_of_ofChain? hsolver
  intro x hx
  have hx : x ∈ List.replicate chain.dof (0 : Float) := by
    cases kind <;> exact hx
  rw [List.eq_of_mem_replicate hx]
  rfl

theorem isFinite_commands_of_started {c : Core Float J} {measured : List (Float × Float)}
    (h : ∀ x ∈ measured, x.1.isFinite = true ∧ x.2.isFinite = true) (kind : CommandKind) :
    ∀ x ∈ (c.started measured).motion.commands kind, x.isFinite = true := by
  intro x hx
  cases kind with
  | position =>
    obtain ⟨y, hy, rfl⟩ := List.mem_map.mp hx
    exact (h y hy).1
  | velocity =>
    obtain ⟨y, hy, rfl⟩ := List.mem_map.mp hx
    exact (h y hy).2

/-- A motion that has just been made is finite, or has overflowed. -/
theorem isFinite_or_overflowed_of_renews {s : Station H J Float} (hs : s.controller.core = none)
    {events : List (Event H Float)} {o : Order Float} {solve : TaskSpace.Method Float}
    (hstart : s.FiniteWhenStarted (events ++ [.order o]) solve) {c : Core Float J}
    (hc : (s.after events solve).controller.core = some c)
    (hr : (c.obeyed (c.measured (s.after events solve).hardware) o solve).1 = .ok ())
    (hrenews : c.Renews o) :
    (∀ x ∈ (c.obeyed (c.measured (s.after events solve).hardware) o solve).2.motion.commands
      s.controller.writes, x.isFinite = true) ∨ s.Overflowed solve (events ++ [.order o]) := by
  have hshaped := shaped_of_after hs events hc
  -- a start makes the motion of what is measured, a period makes it of the old one
  rcases hrenews with rfl | ⟨ho, hm⟩
  · rw [hshaped.obeyed_start (c.length_measured _)]
    exact .inl (isFinite_commands_of_started
      ((finiteWhenStarted_concat.mp hstart).2 rfl c hc) _)
  · obtain ⟨error, period, ho⟩ := Order.isPeriod_iff.mp ho
    have hanswer : ((s.after events solve).obey o solve).1 = .ok () := by
      rw [obey_of_core hc]
      exact hr
    rw [Core.obeyed_of_period hm ho] at hr ⊢
    have ha := c.advanced_advances error period solve
    rw [hr] at ha
    refine or_iff_not_imp_right.mpr fun hnot =>
      (ha.isFinite_commands_iff hshaped.solver _).mpr fun hover => ?_
    exact hnot (.moved ho hc hm hanswer hover)

/-- One order more: the motion is kept, or it has just been made. -/
theorem isFinite_or_overflowed_concat {s : Station H J Float} (hs : s.controller.core = none)
    {events : List (Event H Float)} {o : Order Float} {solve : TaskSpace.Method Float}
    (hstart : s.FiniteWhenStarted (events ++ [.order o]) solve) {c : Core Float J}
    (hc : (s.after events solve).controller.core = some c)
    (h : (∀ x ∈ c.motion.commands s.controller.writes, x.isFinite = true) ∨
      s.Overflowed solve events) :
    (∀ x ∈ (c.obeyed (c.measured (s.after events solve).hardware) o solve).2.motion.commands
      s.controller.writes, x.isFinite = true) ∨ s.Overflowed solve (events ++ [.order o]) := by
  by_cases hkept : (c.obeyed (c.measured (s.after events solve).hardware) o solve).1 = .ok () →
      ¬ c.Renews o
  · rw [Core.motion_obeyed hkept]
    refine h.imp_right fun hover => .kept hover ?_
    rintro o' c' ho hc' hr
    cases ho
    cases hc.symm.trans hc'
    rw [obey_of_core hc] at hr
    exact hkept hr
  · obtain ⟨hr, hrenews⟩ : _ ∧ c.Renews o := by simpa using hkept
    exact isFinite_or_overflowed_of_renews hs hstart hc hr hrenews

/-- **What would be commanded is finite, or the run has overflowed.** The induction is on the run. -/
theorem isFinite_or_overflowed {s : Station H J Float} (hs : s.controller.core = none)
    {events : List (Event H Float)} {solve : TaskSpace.Method Float}
    (hstart : s.FiniteWhenStarted events solve) {c : Core Float J}
    (hc : (s.after events solve).controller.core = some c) :
    (∀ x ∈ c.motion.commands s.controller.writes, x.isFinite = true) ∨
      s.Overflowed solve events := by
  induction events using List.reverseRecOn generalizing c with
  | nil =>
    rw [show s.after [] solve = s from rfl, hs] at hc
    cases hc
  | append_singleton events e ih =>
    have hbefore := (finiteWhenStarted_concat.mp hstart).1
    cases e with
    | change h =>
      rw [after_concat] at hc
      exact (ih hbefore hc).imp_right fun hover => .kept hover fun _ _ he => nomatch he
    | order o =>
      cases hd : (s.after events solve).controller.core with
      | none =>
        rw [after_concat] at hc
        change ((s.after events solve).obey o solve).2.controller.core = some c at hc
        obtain ⟨e, ho⟩ | ⟨config, d, rfl, hb, ho⟩ := obey_cases_of_no_core hd o solve
        · rw [ho, hd] at hc
          cases hc
        · -- a configuration is taken up, with a motion of zeros
          rw [ho] at hc
          cases hc
          exact .inl (isFinite_commands_of_buildCore? hb _)
      | some d =>
        rw [core_after_concat hd] at hc
        cases hc
        exact isFinite_or_overflowed_concat hs hstart hd (ih hbefore hd)

theorem Overflowed.exists_not_finite {s : Station H J Float} (hs : s.controller.core = none)
    {events : List (Event H Float)} {solve : TaskSpace.Method Float}
    (h : s.Overflowed solve events) :
    ∃ c, (s.after events solve).controller.core = some c ∧
      ¬ ∀ x ∈ c.motion.commands s.controller.writes, x.isFinite = true := by
  induction h with
  | @moved events o error period c ho hc hm hr hover =>
    refine ⟨_, core_after_concat hc o, fun hfinite => ?_⟩
    rw [answer_of_period hc hm solve ho] at hr
    rw [Core.obeyed_of_period hm ho] at hfinite
    have ha := c.advanced_advances error period solve
    rw [hr] at ha
    exact (ha.isFinite_commands_iff (shaped_of_after hs events hc).solver _).mp hfinite hover
  | @kept events e _ he ih =>
    obtain ⟨c, hc, hnot⟩ := ih
    cases e with
    | change h => exact ⟨c, by rw [after_concat]; exact hc, hnot⟩
    | order o =>
      have hanswer := he o c rfl hc
      rw [obey_of_core hc] at hanswer
      refine ⟨_, core_after_concat hc o, ?_⟩
      rw [Core.motion_obeyed hanswer]
      exact hnot

/-- **What would be commanded is finite unless the run has overflowed.** -/
theorem isFinite_commands_iff_not_overflowed {s : Station H J Float}
    (hs : s.controller.core = none) {events : List (Event H Float)}
    {solve : TaskSpace.Method Float} (hstart : s.FiniteWhenStarted events solve) {c : Core Float J}
    (hc : (s.after events solve).controller.core = some c) :
    (∀ x ∈ c.motion.commands s.controller.writes, x.isFinite = true) ↔
      ¬ s.Overflowed solve events := by
  refine ⟨fun hfinite hover => ?_, (isFinite_or_overflowed hs hstart hc).resolve_right⟩
  obtain ⟨d, hd, hnot⟩ := hover.exists_not_finite hs
  cases hc.symm.trans hd
  exact hnot hfinite

/-! ### positions between finite limits -/

/-- In the course of a run a period was to move a joint by what is not a number. -/
def WentNowhere (s : Station H J Float) (solve : TaskSpace.Method Float)
    (events : List (Event H Float)) : Prop :=
  ∃ before o rest error period c input pid, events = before ++ .order o :: rest ∧
    (o = .compute error period ∨ o = .tick error period) ∧
    (s.after before solve).controller.core = some c ∧
    c.pid.update? error period = some (input, pid) ∧ c.solver.GoesNowhere period input solve

theorem WentNowhere.concat {s : Station H J Float} {solve : TaskSpace.Method Float}
    {events : List (Event H Float)} (h : s.WentNowhere solve events) (e : Event H Float) :
    s.WentNowhere solve (events ++ [e]) := by
  obtain ⟨before, o, rest, error, period, c, input, pid, rfl, h⟩ := h
  exact ⟨before, o, rest ++ [e], error, period, c, input, pid, List.append_assoc .., h⟩

/-- **Positions between finite limits are only lost to what is not a number.** The induction is on the
run: if the positions before its last period were finite, it is in that period; if they were not, the
run has overflowed before. -/
theorem wentNowhere_of_overflowed {s : Station H J Float} (hs : s.controller.core = none)
    (hwrites : s.controller.writes = .position) {events : List (Event H Float)}
    {solve : TaskSpace.Method Float} (hstart : s.FiniteWhenStarted events solve)
    {c : Core Float J} (hc : (s.after events solve).controller.core = some c)
    (hlimits : ∀ l ∈ c.chain.limits, l.lower.isFinite = true ∧ l.upper.isFinite = true)
    (hover : s.Overflowed solve events) : s.WentNowhere solve events := by
  induction events using List.reverseRecOn generalizing c with
  | nil =>
    rw [show s.after [] solve = s from rfl, hs] at hc
    cases hc
  | append_singleton events e ih =>
    have hbefore := (finiteWhenStarted_concat.mp hstart).1
    have hearlier (d : Core Float J) (hd : (s.after events solve).controller.core = some d)
        (hover : s.Overflowed solve events) : s.WentNowhere solve (events ++ [e]) := by
      obtain ⟨c', hc', hchain, -⟩ := core_after_append hd [e]
      cases hc.symm.trans hc'
      exact (ih hbefore hd (hchain ▸ hlimits) hover).concat e
    generalize hevents : events ++ [e] = all at hover
    cases hover with
    | @moved events' o error period d ho hd hm hr hover =>
      obtain ⟨rfl, he⟩ := List.append_inj' hevents rfl
      cases he
      by_cases hfinite : ∀ q ∈ d.positions, q.isFinite = true
      · obtain ⟨input, pid, hu, hover⟩ := hover
        rw [hwrites] at hover
        obtain ⟨c', hc', hchain, -⟩ := core_after_append hd [.order o]
        cases hc.symm.trans hc'
        obtain ⟨_, _, -, hb⟩ := builtFor_of_after hs events solve hd
        rw [hchain, ← hb.limits] at hlimits
        exact ⟨events, o, [], error, period, d, input, pid, rfl, ho, hd, hu,
          hover.goesNowhere hlimits hfinite⟩
      · refine hevents ▸ hearlier d hd ((isFinite_or_overflowed hs hbefore hd).resolve_left ?_)
        rw [hwrites]
        exact hfinite
    | @kept events' e' hover =>
      obtain ⟨rfl, -⟩ := List.append_inj' hevents rfl
      obtain ⟨d, hd, -⟩ := hover.exists_not_finite hs
      exact hevents ▸ hearlier d hd hover

/-! ### limits that nothing finite lies in -/

/-- A joint whose limits have no room is never sent to a finite position by a tick. -/
theorem exists_not_finite_of_no_room {s : Station H J Float} (hs : s.controller.core = none)
    (hwrites : s.controller.writes = .position) {events : List (Event H Float)}
    {solve : TaskSpace.Method Float} {c : Core Float J}
    (hc : (s.after events solve).controller.core = some c) (hm : c.mode = .running)
    {l : Limits Float} (hl : l ∈ c.chain.limits) (hroom : ¬ l.HasRoom) {error : Axes Float}
    {period : Period} (hr : ((s.after events solve).obey (.tick error period) solve).1 = .ok ()) :
    ∃ command ∈ (s.after events solve).sent (.tick error period) solve,
      command.2.isFinite = false := by
  obtain ⟨_, _, -, hb⟩ := builtFor_of_after hs events solve hc
  rw [obey_of_core hc] at hr
  change (c.obeyed (c.measured (s.after events solve).hardware) _ solve).1 = .ok () at hr
  have hsolves := c.obeyed_solves (c.measured (s.after events solve).hardware)
    (.tick error period) solve
  rw [hr] at hsolves
  have hwithin := hsolves.within_of_ok hb.limits rfl hm
  unfold Solver.Within at hwithin
  rw [hsolves.kept.2, hb.limits] at hwithin
  obtain ⟨q, hq, hadmits⟩ := exists_of_forall₂ hwithin hl
  have hsent := ((shaped_of_after hs events hc).outgoing_tick hm hr .position).2
  rw [sent_of_core hc, writes_after, hwrites]
  obtain ⟨command, hmem, rfl⟩ : ∃ command ∈ c.outgoing .position
      (c.measured (s.after events solve).hardware) (.tick error period) solve, command.2 = q :=
    List.mem_map.mp (hsent ▸ hq)
  exact ⟨command, hmem, Limits.not_isFinite_of_admits hroom hadmits⟩

/-- What the last order of a run sends, if it sends anything, is finite unless the run has overflowed.
-/
theorem sent_nil_or_isFinite_iff {s : Station H J Float} (hs : s.controller.core = none)
    {before : List (Event H Float)} {o : Order Float} {solve : TaskSpace.Method Float}
    (hstart : s.FiniteWhenStarted (before ++ [.order o]) solve) :
    (s.after before solve).sent o solve = [] ∨
      ((∀ command ∈ (s.after before solve).sent o solve, command.2.isFinite = true) ↔
        ¬ s.Overflowed solve (before ++ [.order o])) := by
  cases hd : (s.after before solve).controller.core with
  | none => exact .inl (sent_of_no_core hd o solve)
  | some d =>
    have hc := core_after_concat hd o
    have hshaped := shaped_of_after hs _ hc
    rw [sent_of_core hd, writes_after]
    refine (d.outgoing_eq s.controller.writes _ o solve).imp_right fun hsent => ?_
    refine Iff.trans ?_ (isFinite_commands_iff_not_overflowed hs hstart hc)
    rw [hsent, ← List.forall_mem_map (f := Prod.snd) (P := fun x : Float => x.isFinite = true),
      List.map_snd_zip (hshaped.length_commands s.controller.writes).le]

/-- **Commands are finite unless the run has overflowed.** A running controller refuses an error or an
output of the loops that is not finite; it stays as it is and sends nothing. In a run in which all
joints are measured finite at every start, all that the last order sends is finite, unless the period
that has made the motion has left the range of doubles; then some of it is not. Between finite limits
positions are finite unless a period was to move a joint by what is not a number. -/
theorem commands_are_finite_or_overflowed (solve : TaskSpace.Method Float) (writes : CommandKind)
    (h : H) :
    (∀ (s : Station H J Float) (c : Core Float J) (error : Axes Float) (period : Period)
        (o : Order Float), s.controller.core = some c → c.mode = .running → period.isZero = false →
        (o = .compute error period ∨ o = .tick error period) →
      (error.isFinite = false →
        s.obey o solve = (.error (.refused (.nonFinite .cartesianError)), s) ∧
          s.sent o solve = []) ∧
      (error.isFinite = true → ∀ input pid, c.pid.update? error period = some (input, pid) →
        input.isFinite = false →
        s.obey o solve = (.error (.refused (.nonFinite .pidOutput)), s) ∧ s.sent o solve = [])) ∧
    ∀ (before : List (Event H Float)) (o : Order Float),
      (fresh writes h : Station H J Float).FiniteWhenStarted (before ++ [.order o]) solve →
      (((fresh writes h : Station H J Float).after before solve).sent o solve = [] ∨
        ((∀ command ∈ ((fresh writes h : Station H J Float).after before solve).sent o solve,
            command.2.isFinite = true) ↔
          ¬ (fresh writes h : Station H J Float).Overflowed solve (before ++ [.order o]))) ∧
      (writes = .position →
        (∀ c : Core Float J, ((fresh writes h).after (before ++ [.order o]) solve).controller.core =
          some c → ∀ l ∈ c.chain.limits, l.lower.isFinite = true ∧ l.upper.isFinite = true) →
        ¬ (fresh writes h : Station H J Float).WentNowhere solve (before ++ [.order o]) →
        ∀ command ∈ ((fresh writes h : Station H J Float).after before solve).sent o solve,
          command.2.isFinite = true) := by
  refine ⟨fun s c error period o hc hm hp ho => ⟨fun he => ?_, fun he input pid hu hi => ?_⟩,
    fun before o hstart => ?_⟩
  · exact obey_of_error_not_finite hc hm hp he solve ho
  · exact obey_of_output_not_finite hc hm hp he hu hi solve ho
  · have h0 : (fresh writes h : Station H J Float).controller.core = none := rfl
    have hsent := sent_nil_or_isFinite_iff h0 hstart
    refine ⟨hsent, fun hwrites hlimits hnowhere => ?_⟩
    obtain hnone | hiff := hsent
    · rw [hnone]
      exact fun _ hcommand => (List.not_mem_nil hcommand).elim
    · refine hiff.mpr fun hover => ?_
      obtain ⟨c, hc, -⟩ := hover.exists_not_finite h0
      exact hnowhere (wentNowhere_of_overflowed h0 hwrites hstart hc (hlimits c hc) hover)

/-- The arm refuses an error that is no number; with a proper one it sends its lift and its hand
somewhere finite unless the period overflows. -/
theorem sends_finite_or_overflows :
    ((Sample.station.after Sample.setUp).obey (.tick (.uniform (0.0 / 0.0)) Sample.period)).1 =
        .error (.refused (.nonFinite .cartesianError)) ∧
      ((Sample.station.after Sample.setUp).sent (.tick Sample.error Sample.period)).map Prod.fst =
        [⟨"lift", 0⟩, ⟨"turn", 1⟩] ∧
      ((∀ command ∈ (Sample.station.after Sample.setUp).sent (.tick Sample.error Sample.period),
          command.2.isFinite = true) ↔
        ¬ Sample.station.Overflowed TaskSpace.solve
          (Sample.setUp ++ [.order (.tick Sample.error Sample.period)])) := by
  have hrun : (Sample.station.after Sample.setUp).controller.state = .running := by decide +kernel
  have hr : ((Sample.station.after Sample.setUp).obey (.tick Sample.error Sample.period)).1 =
      .ok () := by decide +kernel
  have hhandles : (Sample.station.after Sample.setUp).controller.handles =
      [⟨"lift", 0⟩, ⟨"turn", 1⟩] := by decide +kernel
  obtain ⟨c, hc, hm⟩ := running_core hrun
  have htold := (sent_tick (s := Sample.station) rfl Sample.setUp hrun hr).1
  rw [hhandles] at htold
  have hstart : Sample.station.FiniteWhenStarted
      (Sample.setUp ++ [.order (.tick Sample.error Sample.period)]) TaskSpace.solve :=
    finiteWhenStarted_once nofun (by decide +kernel)
  obtain ⟨hrefused, hruns⟩ :=
    commands_are_finite_or_overflowed (J := BenchHandle) TaskSpace.solve .position Sample.bench
  refine ⟨congrArg Prod.fst ((hrefused _ c _ Sample.period _ hc hm (by decide) (.inr rfl)).1
    (by decide +kernel)).1, htold, (hruns _ _ hstart).1.resolve_left fun hnone => ?_⟩
  rw [Sample.station, hnone] at htold
  cases htold

/-- An arm of one lift, whose range is infinity and nothing else. -/
def endlessLift : Config Float :=
  { Sample.arm with
    tipFrame := "carriage"
    joints := ["lift"]
    segments := [⟨"lift", "carriage", .prismatic, .unitZ, .zero, .zero,
      .range Binary64.infinity Binary64.infinity⟩] }

/-- The events after which the endless lift runs. -/
def endlessSetUp : List (Event (Bench Float) Float) :=
  [.order (.configure endlessLift), .order .start]

/-- The endless lift is measured finite when it is started, no order is refused, and yet the first
tick does not send it to a finite position. -/
theorem endless_lift_is_not_sent_finite :
    Sample.station.FiniteWhenStarted
        (endlessSetUp ++ [.order (.tick Sample.error Sample.period)]) TaskSpace.solve ∧
      Sample.station.answers (endlessSetUp ++ [.order (.tick Sample.error Sample.period)]) =
        [.ok (), .ok (), .ok ()] ∧
      ∃ command ∈ (Sample.station.after endlessSetUp).sent (.tick Sample.error Sample.period),
        command.2.isFinite = false := by
  have hrun : (Sample.station.after endlessSetUp).controller.state = .running := by decide +kernel
  have hr : ((Sample.station.after endlessSetUp).obey (.tick Sample.error Sample.period)).1 =
      .ok () := by decide +kernel
  have hlimits : (Sample.station.after endlessSetUp).controller.chain?.map Chain.limits =
      some [.range Binary64.infinity Binary64.infinity] := by decide +kernel
  have hroom : ¬ (Limits.range Binary64.infinity Binary64.infinity).HasRoom :=
    fun ⟨_, hx, hlower, _⟩ => Binary64.not_infinity_le hx hlower
  refine ⟨finiteWhenStarted_once nofun (by decide +kernel), by decide +kernel, ?_⟩
  obtain ⟨c, hc, hm⟩ := running_core hrun
  rw [Controller.chain?, hc] at hlimits
  refine exists_not_finite_of_no_room (s := Sample.station) rfl rfl hc hm ?_ hroom hr
  rw [Option.some.inj hlimits]
  exact List.mem_singleton_self _

end Station

end ArmServo
