import ArmServo.Proofs.Config.Period
import ArmServo.Proofs.Controller.Orders
import ArmServo.Proofs.Sample
import ArmServo.Proofs.Scalar.Time

/-!
# A period that is accepted is a period that can be used

On its way through a tick a period is tested for zero three times: by the controller, by the solver
and, in seconds, by the loops. The three tests agree on every period, so that a period that comes out
of a configuration, which is a nanosecond at least, is never refused.

Main statement: `periods_are_nearest_and_usable`.
-/

namespace ArmServo

variable {H J α : Type} [Scalar α]

/-! ## the tests of a tick -/

theorem Solver.Steps.invalidPeriod_iff {s t : Solver α} {period : Period} {velocity : Axes α}
    {solve : TaskSpace.Method α} {r : Except (Failure α) Unit}
    (h : s.Steps period velocity solve r t) (q : Period) :
    r = .error (.refused (.invalidPeriod q)) ↔ period.isZero = true ∧ q = period := by
  cases h with
  | noTime hp =>
    constructor
    · intro hr
      cases hr
      exact ⟨hp, rfl⟩
    · rintro ⟨-, rfl⟩
      rfl
  | misfit hp | stuck hp | moved hp =>
    rw [hp]
    exact ⟨fun hr => (nomatch hr), fun hr => (nomatch hr.1)⟩

theorem Core.Advances.invalidPeriod_iff {c d : Core α J} {error : Axes α} {period : Period}
    {solve : TaskSpace.Method α} {r : Except (Failure α) Unit}
    (h : c.Advances error period solve r d) (q : Period) :
    r = .error (.refused (.invalidPeriod q)) ↔ period.isZero = true ∧ q = period := by
  cases h with
  | noTime hp =>
    constructor
    · intro hr
      cases hr
      exact ⟨hp, rfl⟩
    · rintro ⟨-, rfl⟩
      rfl
  | notMoved _ _ _ _ hs => exact hs.invalidPeriod_iff q
  | badError hp | unbounded hp | badOutput hp | moved hp =>
    rw [hp]
    exact ⟨fun hr => (nomatch hr), fun hr => (nomatch hr.1)⟩

theorem Station.obey_tick_ne_invalidPeriod [JointBus H J α] (s : Station H J α) (error : Axes α)
    {period : Period} (hp : period.isZero = false) (solve : TaskSpace.Method α) (q : Period) :
    (s.obey (.tick error period) solve).1 ≠ .error (.refused (.invalidPeriod q)) := by
  intro h
  cases hc : s.controller.core with
  | none =>
    rw [obey_of_no_core hc] at h
    cases h
  | some c =>
    rw [obey_of_core hc] at h
    unfold Core.obeyed at h
    cases hm : c.mode with
    | paused =>
      rw [hm] at h
      cases h
    | running =>
      rw [hm] at h
      have hzero := ((c.advanced_advances error period solve).invalidPeriod_iff q).mp h
      rw [hp] at hzero
      cases hzero.1

/-! ## the main statement -/

open Binary64 in
/-- **Accepted periods are the nearest ones, and can be used.** The period of a configuration is
refused exactly if its milliseconds are not a number, not above zero, or lead to seconds that are
infinite or of which the nearest number of nanoseconds, ties to even, is zero or `2 ^ 64` seconds and
more; otherwise that number is the period. So a period is a nanosecond at least, and it does not
become less when the seconds become more. A configuration that is validated has a period, and no tick
of it is refused for it: controller, solver and loops agree on every period on whether it takes
time. -/
theorem periods_are_nearest_and_usable [JointBus H J Float] :
    (∀ c : Config Float,
      (c.period? = .error (.configuration (.invalidPeriod c.periodMs)) ↔
        c.periodMs.isNaN = true ∨ c.periodMs ≤ 0 ∨ c.periodSeconds.isInf = true ∨
          ∃ q n, value? c.periodSeconds = some q ∧ IsNearestEven (q * 10 ^ 9) n ∧
            (n = 0 ∨ 2 ^ 64 * 10 ^ 9 ≤ n)) ∧
      (∀ e, c.period? = .error e → e = .configuration (.invalidPeriod c.periodMs)) ∧
      ∀ p, c.period? = .ok p → 1 ≤ p.nanos ∧
        ∃ q, value? c.periodSeconds = some q ∧ IsNearestEven (q * 10 ^ 9) p.nanos) ∧
    (∀ (c c' : Config Float) p p', c.period? = .ok p → c'.period? = .ok p' →
      c.periodSeconds ≤ c'.periodSeconds ∨ (∃ q q', value? c.periodSeconds = some q ∧
        value? c'.periodSeconds = some q' ∧ q ≤ q') → p.nanos ≤ p'.nanos) ∧
    (∀ c : Config Float, c.validate? = .ok () → ∃ p, c.period? = .ok p ∧
      ∀ (s : Station H J Float) error solve q,
        (s.obey (.tick error p) solve).1 ≠ .error (.refused (.invalidPeriod q))) ∧
    ∀ p : Period,
      ((p.seconds : Float) ≤ 0 ↔ p.isZero = true) ∧
      (∀ (c : Core Float J) error solve,
        (c.advanced error p solve).1 = .error (.refused (.invalidPeriod p)) ↔ p.isZero = true) ∧
      ∀ (s : Solver Float) velocity solve,
        ((Solver.step p velocity solve).run s).1 = .error (.refused (.invalidPeriod p)) ↔
          p.isZero = true := by
  refine ⟨fun c => ⟨Config.period?_eq_error_iff, fun e => Config.eq_of_period?_eq_error, ?_⟩,
    ?monotone, ?usable, fun p => ⟨TellsTime.seconds_le_zero_iff p, ?_, ?_⟩⟩
  · intro p hp
    obtain ⟨-, q, hq, hnear, hnanos, -⟩ := Config.period?_eq_ok_iff_nearest.mp hp
    exact ⟨hnanos, q, hq, hnear⟩
  case monotone =>
    rintro c c' p p' hp hp' (hle | ⟨q, q', hq, hq', hle⟩)
    · obtain ⟨-, q, hq, -⟩ := Config.period?_eq_ok_iff_nearest.mp hp
      obtain ⟨-, q', hq', -⟩ := Config.period?_eq_ok_iff_nearest.mp hp'
      exact Config.nanos_le_nanos hp hp' hq hq' (value_le_of_le hq hq' hle)
    · exact Config.nanos_le_nanos hp hp' hq hq' hle
  case usable =>
    intro c hc
    obtain ⟨-, -, -, -, -, ⟨p, hp⟩, -⟩ := Config.validate?_eq_ok_iff.mp hc
    obtain ⟨-, -, -, -, hnanos, -⟩ := Config.period?_eq_ok_iff_nearest.mp hp
    have htime : p.isZero = false := beq_eq_false_iff_ne.mpr hnanos.ne'
    exact ⟨p, hp, fun s error solve q => s.obey_tick_ne_invalidPeriod error htime solve q⟩
  · intro c error solve
    exact ((c.advanced_advances error p solve).invalidPeriod_iff p).trans (and_iff_left rfl)
  · intro s velocity solve
    exact ((s.step_steps p velocity solve).invalidPeriod_iff p).trans (and_iff_left rfl)

open Binary64 in
/-- The two milliseconds of the arm are two million nanoseconds, with which it can be run; with a
period of less than half a nanosecond it is refused, and a period of more milliseconds is not a
shorter one. -/
theorem arm_period_is_usable :
    (∃ q, value? Sample.arm.periodSeconds = some q ∧ IsNearestEven (q * 10 ^ 9) 2000000) ∧
    (∀ error solve q, ((Sample.station.after Sample.setUp).obey (.tick error ⟨2000000⟩) solve).1 ≠
      .error (.refused (.invalidPeriod q))) ∧
    (∃ q n, value? ({ Sample.arm with periodMs := 4e-7 } : Config Float).periodSeconds = some q ∧
      IsNearestEven (q * 10 ^ 9) n ∧ (n = 0 ∨ 2 ^ 64 * 10 ^ 9 ≤ n)) ∧
    ∀ p, ({ Sample.arm with periodMs := 2.5 } : Config Float).period? = .ok p →
      2000000 ≤ p.nanos := by
  have hperiod : Sample.arm.period? = .ok ⟨2000000⟩ := by decide +kernel
  have hvalid : Sample.arm.validate? = .ok () := by decide +kernel
  obtain ⟨hconfig, hmonotone, husable, -⟩ :=
    periods_are_nearest_and_usable (H := Bench Float) (J := BenchHandle)
  obtain ⟨-, hnearest⟩ := (hconfig Sample.arm).2.2 _ hperiod
  refine ⟨hnearest, ?_, ?_, fun p hp => ?_⟩
  · obtain ⟨p, hp, hticks⟩ := husable Sample.arm hvalid
    cases hperiod.symm.trans hp
    exact hticks _
  · have hrefused : ({ Sample.arm with periodMs := 4e-7 } : Config Float).period? =
        .error (.configuration (.invalidPeriod 4e-7)) := by decide +kernel
    rcases (hconfig { Sample.arm with periodMs := 4e-7 }).1.mp hrefused with h | h | h | h
    · exact absurd h (by decide +kernel)
    · exact absurd h (by decide +kernel)
    · exact absurd h (by decide +kernel)
    · exact h
  · exact hmonotone _ _ _ _ hperiod hp (.inl (by decide +kernel))

end ArmServo
