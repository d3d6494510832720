import ArmServo.Proofs.CommandLine.Run
import ArmServo.Proofs.Controller.Stops
import ArmServo.Proofs.Sample

/-!
# Runs out of the range of time

The period of a configuration is in range, but twice the period need not be, nor the periods of a run
together. There a run stops, and nowhere else: what a configuration puts in force does not stop a
period.

Main statement: `run_stops_exactly_out_of_range`.
-/

namespace ArmServo

/-! ## what does not stop -/

namespace Core

variable {J : Type} {c : Core Float J}

/-- The bounds of all clamps are in order. -/
structure IsOrderly (c : Core Float J) : Prop where
  limits : ∀ l ∈ c.solver.limits, l.isValid = true
  bounds : ¬ c.IsUndefined

theorem IsOrderly.ne_stopped (h : c.IsOrderly) (measured : List (Float × Float)) (o : Order Float)
    (solve : TaskSpace.Method Float) : (c.obeyed measured o solve).1 ≠ .error .stopped :=
  fun hstopped => h.bounds ((obeyed_eq_stopped_iff h.limits measured o solve).mp hstopped).2

theorem IsOrderly.obeyed (h : c.IsOrderly) (measured : List (Float × Float)) {o : Order Float}
    (ho : ∀ g, o ≠ .setGains g) (solve : TaskSpace.Method Float) :
    (c.obeyed measured o solve).2.IsOrderly := by
  obtain ⟨-, hlimits⟩ := (c.obeyed_solves measured o solve).kept
  refine ⟨?_, ?_⟩
  · rw [hlimits]
    exact h.limits
  · obtain hgains | ⟨g, hg, -⟩ := (c.obeyed_recalls measured o solve).gains
    · unfold IsUndefined
      rw [hgains]
      exact h.bounds
    · exact absurd hg (ho g)

end Core

namespace Station

variable {s : Station (Bench Float) BenchHandle Float} {c : Core Float BenchHandle}

theorem isOrderly_of_buildCore? {kind : CommandKind} {b : Bench Float} {config : Config Float}
    (hb : buildCore? kind b config = .ok c) : c.IsOrderly := by
  have hbuilt := builtFor_of_buildCore? hb
  refine ⟨?_, not_isUndefined_of_buildCore? hb⟩
  rw [hbuilt.limits]
  exact Config.isValid_of_chain? hbuilt.chain

/-- An operation ends at a running controller in order, or is refused. -/
def EndsOrderly (r : Except (Failure Float) Unit × Station (Bench Float) BenchHandle Float) : Prop :=
  match r.1 with
  | .ok _ => ∃ c, r.2.controller.core = some c ∧ c.mode = .running ∧ c.IsOrderly
  | .error f => f ≠ .stopped

theorem endsOrderly_tickAndFollow (hc : s.controller.core = some c) (hm : c.mode = .running)
    (ho : c.IsOrderly) (error : Axes Float) (period : Period) :
    EndsOrderly ((tickAndFollow error period).run s) := by
  rcases hr : (tickAndFollow error period).run s with ⟨f | _, t⟩
  · have hne := ho.ne_stopped (c.measured s.hardware) (.tick error period) TaskSpace.solve
    rw [tickAndFollow_run, obey_of_core hc] at hr
    rcases hd : c.obeyed (c.measured s.hardware) (.tick error period) TaskSpace.solve with ⟨_ | _, d⟩
    · rw [hd] at hr hne
      cases hr
      exact fun hf => hne (congrArg _ hf)
    · rw [hd] at hr
      cases hr
  · obtain ⟨d, hd, hmode, rfl⟩ := tickAndFollow_of_running hc hm hr
    have hd' := ho.obeyed (c.measured s.hardware) (o := .tick error period) nofun TaskSpace.solve
    rw [hd] at hd'
    exact ⟨d, rfl, hmode, hd'⟩

theorem endsOrderly_periods (hc : s.controller.core = some c) (hm : c.mode = .running)
    (ho : c.IsOrderly) (error : Axes Float) (period : Period) (count : Nat) :
    EndsOrderly ((periods {} error period count).run s) := by
  induction count with
  | zero => exact ⟨c, hc, hm, ho⟩
  | succ count ih =>
    rw [periods_succ, run_bind]
    rcases hr : (periods {} error period count).run s with ⟨f | _, t⟩
    · rw [hr] at ih
      exact ih
    · rw [hr] at ih
      obtain ⟨d, hd, hmode, hd'⟩ := ih
      exact endsOrderly_tickAndFollow hd hmode hd' error period

/-- **The periods of a controller in order do not stop**, whatever the schedule is. -/
theorem periods_ne_stopped (hc : s.controller.core = some c) (hm : c.mode = .running)
    (ho : c.IsOrderly) (schedule : Schedule) (error : Axes Float) (period : Period) (count : Nat) :
    ((periods schedule error period count).run s).1 ≠ .error .stopped := by
  have hends := endsOrderly_periods hc hm ho error period (schedule.running count)
  rw [periods_run (state_of_mode hc hm)]
  rcases hr : (periods {} error period (schedule.running count)).run s with ⟨f | _, t⟩
  · rw [hr] at hends
    exact fun h => hends (Except.error.inj h)
  · exact nofun

/-- With a controller in order a row stops exactly if it gets out of range. -/
theorem runPeriods_eq_stopped_iff (hc : s.controller.core = some c) (hm : c.mode = .running)
    (ho : c.IsOrderly) (schedule : Schedule) (error : Axes Float) (period : Period) (count : Nat) :
    ((runPeriods schedule error period count 0 .zero).run s).1 = .error .stopped ↔
      Period.bound ≤ period.nanos * count ∧
        ((periods schedule error period (lastInRange period + 1)).run s).1 = .ok () := by
  have hne := periods_ne_stopped hc hm ho schedule error period
  rw [runPeriods_eq]
  by_cases hcount : period.nanos * count < Period.bound
  · rw [if_pos hcount]
    exact ⟨fun h => absurd h (hne count), fun h => absurd h.1 (not_le.mpr hcount)⟩
  · rw [if_neg hcount, and_iff_right (not_lt.mp hcount), run_bind]
    have hlast := hne (lastInRange period + 1)
    rcases hr : (periods schedule error period (lastInRange period + 1)).run s with ⟨f | _, t⟩
    · rw [hr] at hlast
      exact ⟨fun h => absurd h hlast, nofun⟩
    · exact ⟨fun _ => rfl, fun _ => rfl⟩

end Station

namespace CommandLine

variable {c : Config Float} {o : RunOptions} {kind : CommandKind} {period : Period}
  {error : Axes Float} {start : List Float}

theorem isOrderly_started {core : Core Float BenchHandle}
    (hb : Station.buildCore? kind (runBench c start) c = .ok core) :
    (core.started (core.measured (runBench c start))).IsOrderly := by
  have h := (Station.isOrderly_of_buildCore? hb).obeyed (core.measured (runBench c start))
    (o := .start) nofun TaskSpace.solve
  rwa [(Station.shaped_of_buildCore? hb).obeyed_start (core.length_measured _)] at h

/-- A run that is prepared stops exactly if its controller is set up and twice the period is out of
range, or all periods together are and the period that gets there succeeds. -/
theorem simulate?_eq_stopped_iff (ticks : Nat) (schedule : Schedule) :
    simulate? c kind period ⟨error, start, ticks, schedule⟩ = .error .stopped ↔
      ∃ core, Station.buildCore? kind (runBench c start) c = .ok core ∧
        (Period.bound ≤ period.nanos * 2 ∨ Period.bound ≤ period.nanos * ticks ∧
          ((Station.periods schedule error period (Station.lastInRange period + 1)).run
            (begun c kind start core)).1 = .ok ()) := by
  cases hb : Station.buildCore? kind (runBench c start) c with
  | error e =>
    rw [simulate?_of_refused hb _ rfl]
    exact ⟨nofun, fun ⟨_, h, _⟩ => nomatch h⟩
  | ok core =>
    have hstops := Station.runPeriods_eq_stopped_iff (s := begun c kind start core) rfl
      (atWork_begun hb).1.mode (isOrderly_started hb) schedule error period ticks
    simp only [Except.ok.injEq, exists_eq_left']
    rw [simulate?_of_core hb, ← hstops]
    by_cases hgap : period.nanos * 2 < Period.bound
    · rw [if_pos hgap, or_iff_right (not_le.mpr hgap)]
      rcases (Station.runPeriods schedule error period ticks 0 .zero).run (begun c kind start core)
        with ⟨f | _, t⟩
      · cases f with
        | refused e => exact ⟨nofun, nofun⟩
        | stopped => exact ⟨fun _ => rfl, fun _ => rfl⟩
      · exact ⟨nofun, nofun⟩
    · rw [if_neg hgap]
      exact ⟨fun _ => .inl (not_lt.mp hgap), fun _ => rfl⟩

/-- A run gets out of range: it is prepared, its controller is set up, and twice its period is out of
range, or all its periods together are and those up to the one that gets there succeed. -/
def GetsOutOfRange (c : Config Float) (o : RunOptions) : Prop :=
  ∃ kind period error start core, Prepared c o kind period error start ∧
    Station.buildCore? kind (runBench c start) c = .ok core ∧
    (Period.bound ≤ period.nanos * 2 ∨ Period.bound ≤ period.nanos * o.ticks ∧
      ((Station.periods o.schedule error period (Station.lastInRange period + 1)).run
        (begun c kind start core)).1 = .ok ())

theorem runConfig?_eq_stopped_iff : runConfig? c o = .error .stopped ↔ GetsOutOfRange c o := by
  constructor
  · intro h
    obtain ⟨kind, period, error, start, hp⟩ | ⟨e, he⟩ := prepared_or_failed c o
    · rw [runConfig?_of_prepared hp] at h
      obtain ⟨core, hb, hout⟩ := (simulate?_eq_stopped_iff _ _).mp h
      exact ⟨kind, period, error, start, core, hp, hb, hout⟩
    · rw [he] at h
      cases h
  · rintro ⟨kind, period, error, start, core, hp, hb, hout⟩
    rw [runConfig?_of_prepared hp]
    exact (simulate?_eq_stopped_iff _ _).mpr ⟨core, hb, hout⟩

theorem runConfig?_ne_stopped (hperiod : c.period? = .ok period)
    (hgap : period.nanos * 2 < Period.bound) (hticks : period.nanos * o.ticks < Period.bound) :
    runConfig? c o ≠ .error .stopped := by
  intro h
  obtain ⟨kind, period', error, start, core, hp, -, hout⟩ := runConfig?_eq_stopped_iff.mp h
  cases hperiod.symm.trans hp.period
  rcases hout with hout | ⟨hout, -⟩
  · exact absurd hgap (not_lt.mpr hout)
  · exact absurd hticks (not_lt.mpr hout)

/-- Periods up to a second are in range for all numbers of them that fit into 64 bits. -/
theorem short_periods_do_not_stop (hperiod : c.period? = .ok period)
    (hshort : period.nanos ≤ Period.nanosPerSecond) (hticks : o.ticks < 2 ^ 64) :
    runConfig? c o ≠ .error .stopped := by
  have hsecond : Period.nanosPerSecond * o.ticks < Period.bound := by
    rw [Nat.mul_comm]
    exact Nat.mul_lt_mul_of_pos_right hticks (by decide)
  refine runConfig?_ne_stopped hperiod ?_ (lt_of_le_of_lt (Nat.mul_le_mul_right _ hshort) hsecond)
  exact lt_of_le_of_lt (Nat.mul_le_mul_right 2 hshort) (by decide)

/-- **A run stops exactly when the time gets out of range.** So no run stops of which all periods
together, and twice the period, are in range. -/
theorem run_stops_exactly_out_of_range (c : Config Float) (o : RunOptions) :
    (runConfig? c o = .error .stopped ↔ GetsOutOfRange c o) ∧
    ∀ period, c.period? = .ok period → period.nanos * 2 < Period.bound →
      period.nanos * o.ticks < Period.bound → runConfig? c o ≠ .error .stopped :=
  ⟨runConfig?_eq_stopped_iff, fun _ => runConfig?_ne_stopped⟩

/-- A run without an error. -/
def atRest (ticks : Nat) : RunOptions := ⟨"arm.toml", ticks, "0,0,0,0,0,0", none, false, {}⟩

/-- The arm is in range for more than seventy million years. -/
theorem arm_runs_for_long :
    Sample.arm.period? = .ok ⟨2000000⟩ ∧ 2000000 * 2 < Period.bound ∧
      2000000 * 2 ^ 60 < Period.bound ∧
      runConfig? Sample.arm (atRest (2 ^ 60)) ≠ .error .stopped := by
  have hperiod : Sample.arm.period? = .ok ⟨2000000⟩ := by decide +kernel
  have hgap : 2000000 * 2 < Period.bound := by decide
  have hticks : 2000000 * 2 ^ 60 < Period.bound := by decide
  exact ⟨hperiod, hgap, hticks, (run_stops_exactly_out_of_range Sample.arm (atRest (2 ^ 60))).2
    ⟨2000000⟩ hperiod hgap hticks⟩

/-- The arm with a period of `10 ^ 19` seconds, which are more than `2 ^ 63` of them. -/
def slowArm : Config Float := { Sample.arm with periodMs := 1e22 }

/-- An accepted configuration can stop its runs, whatever the number of their periods is. -/
theorem slow_arm_stops :
    ¬ ∀ (c : Config Float) (o : RunOptions), c.validate? = .ok () →
      runConfig? c o ≠ .error .stopped := by
  intro h
  have hvalid : slowArm.validate? = .ok () := by decide +kernel
  have hstops : (runConfig? slowArm (atRest 0)).map (fun _ => ()) = .error .stopped := by
    decide +kernel
  exact h slowArm (atRest 0) hvalid (map_eq_error.mp hstops)

/-- Two periods may be in range while three of them are not. -/
example : (runConfig? { Sample.arm with periodMs := 9e21 } (atRest 3)).map (fun _ => ()) =
    .error .stopped := by decide +kernel

end CommandLine

end ArmServo
