import Mathlib
import ArmServo.Controller.Servo
import ArmServo.Proofs.Controller.Lifecycle
import ArmServo.Proofs.Controller.Pauses

/-!
# Scheduled runs

A run is a row of periods and a count of the time that has passed. As long as the time is in range the
count has no influence, and the first period that takes it out of range is the last one
(`runPeriods_eq`). What a schedule does to the row is to change the mode before a period. A paused
period does nothing, so the row ends where a row without a schedule ends that has only its running
periods (`periods_run`); how many these are, and in which mode a row ends, follows from the places of
the pause and the resume.

Main statements: `runPeriods_eq`, `periods_run`.
-/

namespace ArmServo

/-! ## modes along a schedule -/

namespace Schedule

/-- The mode in the period at `index`, from the mode before it. -/
def modeAt (schedule : Schedule) (index : Nat) (mode : Mode) : Mode :=
  if schedule.resumeAfter = some index then .running
  else if schedule.pauseAfter = some index then .paused
  else mode

/-- The mode after the first periods of a run. -/
def modeAfter (schedule : Schedule) : (count : Nat) → Mode
  | 0 => .running
  | count + 1 => schedule.modeAt count (schedule.modeAfter count)

/-- The number of running periods among the first ones. -/
def running (schedule : Schedule) : (count : Nat) → Nat
  | 0 => 0
  | count + 1 =>
    match schedule.modeAfter (count + 1) with
    | .running => schedule.running count + 1
    | .paused => schedule.running count

/-- There is no resume without an earlier pause. -/
def IsOrdered (schedule : Schedule) : Prop :=
  ∀ resume, schedule.resumeAfter = some resume →
    ∃ pause, schedule.pauseAfter = some pause ∧ pause < resume

/-- The number of paused periods of a run: from the pause to the resume or to the end. -/
def paused (schedule : Schedule) (count : Nat) : Nat :=
  min (schedule.resumeAfter.getD count) count - min (schedule.pauseAfter.getD count) count

/-- A run pauses and does not go on before its end. -/
def EndsPaused (schedule : Schedule) (count : Nat) : Prop :=
  (∃ pause, schedule.pauseAfter = some pause ∧ pause < count) ∧
    ∀ resume, schedule.resumeAfter = some resume → count ≤ resume

variable {schedule : Schedule}

theorem not_endsPaused_zero (schedule : Schedule) : ¬ schedule.EndsPaused 0 :=
  fun ⟨⟨_, _, hlt⟩, _⟩ => Nat.not_lt_zero _ hlt

/-- One period more ends paused if it pauses, or if it does not go on. -/
theorem endsPaused_succ_iff (h : schedule.IsOrdered) (count : Nat) :
    schedule.EndsPaused (count + 1) ↔ schedule.resumeAfter ≠ some count ∧
      (schedule.pauseAfter = some count ∨ schedule.EndsPaused count) := by
  constructor
  · rintro ⟨⟨pause, hpause, hlt⟩, hresume⟩
    refine ⟨fun he => Nat.not_succ_le_self _ (hresume count he), ?_⟩
    rcases Nat.lt_succ_iff_lt_or_eq.mp hlt with hlt | rfl
    · exact .inr ⟨⟨pause, hpause, hlt⟩, fun m hm => Nat.le_of_succ_le (hresume m hm)⟩
    · exact .inl hpause
  · rintro ⟨hne, hpause | ⟨⟨pause, hpause, hlt⟩, hresume⟩⟩
    · refine ⟨⟨count, hpause, Nat.lt_succ_self _⟩, fun m hm => ?_⟩
      obtain ⟨pause, hpause', hlt⟩ := h m hm
      rw [hpause] at hpause'
      cases hpause'
      exact hlt
    · refine ⟨⟨pause, hpause, Nat.lt_succ_of_lt hlt⟩, fun m hm => ?_⟩
      exact Nat.lt_of_le_of_ne (hresume m hm) fun he => hne (he ▸ hm)

theorem modeAfter_eq_paused_iff (h : schedule.IsOrdered) (count : Nat) :
    schedule.modeAfter count = .paused ↔ schedule.EndsPaused count := by
  induction count with
  | zero => exact ⟨nofun, fun hends => absurd hends schedule.not_endsPaused_zero⟩
  | succ count ih =>
    rw [endsPaused_succ_iff h, ← ih, modeAfter, modeAt]
    by_cases hresume : schedule.resumeAfter = some count
    · rw [if_pos hresume]
      exact ⟨nofun, fun hends => absurd hresume hends.1⟩
    · rw [if_neg hresume]
      by_cases hpause : schedule.pauseAfter = some count
      · rw [if_pos hpause]
        exact ⟨fun _ => ⟨hresume, .inl hpause⟩, fun _ => rfl⟩
      · rw [if_neg hpause]
        exact ⟨fun hends => ⟨hresume, .inr hends⟩, fun hends => hends.2.resolve_left hpause⟩

theorem paused_succ (h : schedule.IsOrdered) (count : Nat) :
    schedule.paused (count + 1) =
      match schedule.modeAfter (count + 1) with
      | .running => schedule.paused count
      | .paused => schedule.paused count + 1 := by
  have hends := modeAfter_eq_paused_iff h (count + 1)
  obtain ⟨_ | pause, _ | resume⟩ := schedule <;>
    cases hm : Schedule.modeAfter _ (count + 1) <;>
    simp [paused, EndsPaused, IsOrdered, hm] at h hends ⊢ <;> omega

theorem paused_le (schedule : Schedule) (count : Nat) : schedule.paused count ≤ count := by
  unfold paused
  omega

theorem running_le (schedule : Schedule) (count : Nat) : schedule.running count ≤ count := by
  induction count with
  | zero => exact Nat.le_refl 0
  | succ count ih =>
    rw [running]
    cases schedule.modeAfter (count + 1) with
    | running => exact Nat.succ_le_succ ih
    | paused => exact Nat.le_succ_of_le ih

/-- **The running periods** are those that are not paused. -/
theorem running_eq (h : schedule.IsOrdered) (count : Nat) :
    schedule.running count = count - schedule.paused count := by
  induction count with
  | zero => exact (Nat.zero_sub _).symm
  | succ count ih =>
    have hle := schedule.paused_le count
    rw [running, ih, paused_succ h]
    cases schedule.modeAfter (count + 1) with
    | running => exact (Nat.succ_sub hle).symm
    | paused => exact (Nat.succ_sub_succ count _).symm

end Schedule

namespace Station

/-! ## periods as a row -/

section Rows

variable {α : Type} [Scalar α]

/-- Pauses or goes on before a period. -/
def switch (schedule : Schedule) (index : Nat) : Operation (Bench α) BenchHandle α Unit := do
  if schedule.pauseAfter = some index then pause
  if schedule.resumeAfter = some index then resume

/-- The first periods of a run, without a count of time. -/
def periods (schedule : Schedule) (error : Axes α) (period : Period) :
    (count : Nat) → Operation (Bench α) BenchHandle α Unit
  | 0 => pure ()
  | count + 1 => do
    periods schedule error period count
    switch schedule count
    tickAndFollow error period

theorem runPeriods_succ (schedule : Schedule) (error : Axes α) (period : Period)
    (count index : Nat) (elapsed : Period) :
    runPeriods schedule error period (count + 1) index elapsed = (do
      switch schedule index
      tickAndFollow error period
      match elapsed.add? period with
      | some elapsed => runPeriods schedule error period count (index + 1) elapsed
      | none => throw .stopped) := by
  rw [runPeriods, switch]
  cases elapsed.add? period <;>
    by_cases hpause : schedule.pauseAfter = some index <;>
    by_cases hresume : schedule.resumeAfter = some index <;>
    simp only [hpause, hresume, if_true, if_false, bind_assoc, pure_bind]

/-- **While the time is in range it has no influence.** -/
theorem periods_runPeriods_of_lt (schedule : Schedule) (error : Axes α) (period : Period)
    (count index : Nat) (h : period.nanos * (index + count) < Period.bound) :
    (do
      periods schedule error period index
      runPeriods schedule error period count index ⟨period.nanos * index⟩) =
    periods schedule error period (index + count) := by
  induction count generalizing index with
  | zero => exact bind_pure _
  | succ count ih =>
    have hle : period.nanos * index + period.nanos < Period.bound := by
      refine lt_of_le_of_lt ?_ h
      rw [← Nat.mul_succ]
      exact Nat.mul_le_mul_left _ (by omega)
    have hadd : Period.add? ⟨period.nanos * index⟩ period = some ⟨period.nanos * (index + 1)⟩ :=
      if_pos hle
    have hindex : index + 1 + count = index + (count + 1) := by omega
    rw [runPeriods_succ, hadd, ← hindex, ← ih (index + 1) (by rwa [hindex])]
    simp only [periods, bind_assoc]

/-- The last period stops the run when it takes the time out of range. -/
theorem periods_runPeriods_of_le (schedule : Schedule) (error : Axes α) (period : Period)
    (count index last : Nat) (hlast : period.nanos * last < Period.bound)
    (hout : Period.bound ≤ period.nanos * (last + 1)) (hindex : index ≤ last)
    (hcount : last < index + count) :
    (do
      periods schedule error period index
      runPeriods schedule error period count index ⟨period.nanos * index⟩) =
    (do
      periods schedule error period (last + 1)
      throw .stopped) := by
  induction count generalizing index with
  | zero => omega
  | succ count ih =>
    rw [runPeriods_succ]
    rcases Nat.lt_or_eq_of_le hindex with hlt | rfl
    · have hin : period.nanos * index + period.nanos < Period.bound := by
        refine lt_of_le_of_lt ?_ hlast
        rw [← Nat.mul_succ]
        exact Nat.mul_le_mul_left _ hlt
      have hadd : Period.add? ⟨period.nanos * index⟩ period = some ⟨period.nanos * (index + 1)⟩ :=
        if_pos hin
      rw [hadd, ← ih (index + 1) hlt (by omega)]
      simp only [periods, bind_assoc]
    · have hadd : Period.add? ⟨period.nanos * index⟩ period = none := if_neg (not_lt.mpr hout)
      rw [hadd]
      simp only [periods, bind_assoc]

/-- The last period that begins in range, counted from zero. -/
def lastInRange (period : Period) : Nat := (Period.bound - 1) / period.nanos

/-- **A run is a row of periods**, unless it gets out of range: then it stops after the period that
takes it there. -/
theorem runPeriods_eq (schedule : Schedule) (error : Axes α) (period : Period) (count : Nat) :
    runPeriods schedule error period count 0 .zero =
      if period.nanos * count < Period.bound then periods schedule error period count
      else (do
        periods schedule error period (lastInRange period + 1)
        throw .stopped) := by
  have hrun : runPeriods schedule error period count 0 .zero = (do
      periods schedule error period 0
      runPeriods schedule error period count 0 ⟨period.nanos * 0⟩) := (pure_bind _ _).symm
  rw [hrun]
  split
  next h =>
    rw [← Nat.zero_add count] at h
    rw [periods_runPeriods_of_lt schedule error period count 0 h, Nat.zero_add]
  next h =>
    have hle := not_lt.mp h
    have hbound : 0 < Period.bound := by decide
    have hpos : 0 < period.nanos := Nat.pos_of_mul_pos_right (lt_of_lt_of_le hbound hle)
    have hlast : period.nanos * lastInRange period < Period.bound :=
      lt_of_le_of_lt (Nat.mul_div_le _ _) (by omega)
    have hout : Period.bound ≤ period.nanos * (lastInRange period + 1) :=
      Nat.le_of_pred_lt (Nat.lt_mul_div_succ _ hpos)
    refine periods_runPeriods_of_le schedule error period count 0 _ hlast hout (Nat.zero_le _) ?_
    rw [Nat.zero_add]
    exact Nat.lt_of_mul_lt_mul_left (lt_of_lt_of_le hlast hle)

end Rows

/-! ## modes of a station -/

section Modes

variable {H J α : Type}

/-- The station with its core, if there is one, in another mode. -/
def withMode (s : Station H J α) (mode : Mode) : Station H J α :=
  { s with controller :=
      { s.controller with core := s.controller.core.map fun c => { c with mode := mode } } }

variable {s : Station H J α} {c : Core α J}

theorem withMode_of_core (hc : s.controller.core = some c) (mode : Mode) :
    s.withMode mode = s.withCore { c with mode := mode } := by
  unfold withMode
  rw [hc]
  rfl

theorem core_withMode (hc : s.controller.core = some c) (mode : Mode) :
    (s.withMode mode).controller.core = some { c with mode := mode } := by
  rw [withMode_of_core hc, withCore_core]

theorem withMode_withMode (s : Station H J α) (mode mode' : Mode) :
    (s.withMode mode).withMode mode' = s.withMode mode' := by
  unfold withMode
  dsimp only
  rw [Option.map_map]
  rfl

theorem withMode_of_running (hs : s.controller.state = .running) : s.withMode .running = s := by
  obtain ⟨c, hc, hm⟩ := running_core hs
  have hmode : ({ c with mode := .running } : Core α J) = c := by rw [← hm]
  rw [withMode_of_core hc, hmode, withCore_self hc]

theorem state_of_mode (hc : s.controller.core = some c) (hm : c.mode = .running) :
    s.controller.state = .running := by
  unfold Controller.state
  simp only [hc, hm]

end Modes

/-! ## one period -/

section Periods

variable {α : Type} [Scalar α] {s t : Station (Bench α) BenchHandle α} {c : Core α BenchHandle}

omit [Scalar α] in
theorem switch_run (hc : s.controller.core = some c) (schedule : Schedule) (index : Nat) :
    (switch schedule index).run s = (.ok (), s.withMode (schedule.modeAt index c.mode)) := by
  have hpause : (pause : Operation (Bench α) BenchHandle α Unit).run s =
      (.ok (), s.withMode .paused) := by
    rw [withMode_of_core hc]
    exact changeCore_run_some hc _
  have hresume : (resume : Operation (Bench α) BenchHandle α Unit).run s =
      (.ok (), s.withMode .running) := by
    rw [withMode_of_core hc]
    exact changeCore_run_some hc _
  have hboth : (resume : Operation (Bench α) BenchHandle α Unit).run (s.withMode .paused) =
      (.ok (), s.withMode .running) := by
    refine (changeCore_run_some (core_withMode hc .paused) _).trans ?_
    rw [← withMode_withMode s .paused .running, withMode_of_core (core_withMode hc .paused)]
  have hself : s.withMode c.mode = s := by
    rw [withMode_of_core hc]
    exact withCore_self hc
  unfold switch Schedule.modeAt
  by_cases hp : schedule.pauseAfter = some index <;>
    by_cases hr : schedule.resumeAfter = some index <;>
    simp only [hp, hr, if_true, if_false, run_bind, run_pure, hpause, hresume, hboth, hself]

theorem follow_of_paused (hc : s.controller.core = some c) (hm : c.mode = .paused)
    (period : Period) : follow period s = s := by
  unfold follow Controller.isPaused Controller.state
  simp only [hc, hm]
  rfl

theorem follow_of_running (hc : s.controller.core = some c) (hm : c.mode = .running)
    (period : Period) :
    follow period s = { s with hardware := s.hardware.step s.controller.writes period } := by
  unfold follow Controller.isPaused Controller.state
  simp only [hc, hm]
  rfl

theorem tickAndFollow_run (error : Axes α) (period : Period)
    (s : Station (Bench α) BenchHandle α) :
    (tickAndFollow error period).run s =
      match s.obey (.tick error period) with
      | (.ok _, t) => (.ok (), follow period t)
      | (.error f, t) => (.error f, t) := by
  have hobey : (tick error period).run s = s.obey (.tick error period) := rfl
  unfold tickAndFollow
  rw [run_bind, hobey]
  rcases s.obey (.tick error period) with ⟨_ | _, t⟩ <;> rfl

theorem tickAndFollow_run_of_paused (hc : s.controller.core = some c) (hm : c.mode = .paused)
    (error : Axes α) (period : Period) : (tickAndFollow error period).run s = (.ok (), s) := by
  rw [tickAndFollow_run, (obey_of_isIdle hc hm rfl TaskSpace.solve).1]
  exact congrArg _ (follow_of_paused hc hm period)

/-- What a period leaves when it succeeds while the controller runs: the commands have been sent and
followed, and the controller runs. -/
theorem tickAndFollow_of_running (hc : s.controller.core = some c) (hm : c.mode = .running)
    {error : Axes α} {period : Period}
    (hr : (tickAndFollow error period).run s = (.ok (), t)) :
    ∃ d, (c.obeyed (c.measured s.hardware) (.tick error period) TaskSpace.solve) = (.ok (), d) ∧
      d.mode = .running ∧ t = { s.withCore d with
        hardware := (JointBus.setAll s.hardware (c.outgoing s.controller.writes
          (c.measured s.hardware) (.tick error period) TaskSpace.solve)).step
            s.controller.writes period } := by
  have hmode := c.advanced_advances error period TaskSpace.solve
  have hobeyed := Core.obeyed_of_period hm (.inr (Eq.refl (Order.tick error period)))
    (c.measured s.hardware) TaskSpace.solve
  rw [tickAndFollow_run, obey_of_core hc] at hr
  rw [hobeyed] at hr ⊢
  rcases hd : c.advanced error period TaskSpace.solve with ⟨_ | _, d⟩
  · rw [hd] at hr
    cases hr
  · rw [hd] at hr hmode
    have hd := hmode.mode.trans hm
    refine ⟨d, rfl, hd, ?_⟩
    cases hr
    exact follow_of_running (c := d) rfl hd period

theorem state_of_tickAndFollow (hs : s.controller.state = .running) {error : Axes α}
    {period : Period} (hr : (tickAndFollow error period).run s = (.ok (), t)) :
    t.controller.state = .running := by
  obtain ⟨c, hc, hm⟩ := running_core hs
  obtain ⟨d, -, hd, rfl⟩ := tickAndFollow_of_running hc hm hr
  exact state_of_mode rfl hd

/-! ## rows of periods -/

theorem periods_succ (error : Axes α) (period : Period) (count : Nat) :
    periods {} error period (count + 1) = (do
      periods {} error period count
      tickAndFollow error period) := by
  have hswitch : (switch {} count : Operation (Bench α) BenchHandle α Unit) = pure () := rfl
  rw [periods, hswitch]
  simp only [pure_bind]

theorem state_of_periods (hs : s.controller.state = .running) {error : Axes α} {period : Period}
    {count : Nat} (hr : (periods {} error period count).run s = (.ok (), t)) :
    t.controller.state = .running := by
  induction count generalizing t with
  | zero =>
    cases hr
    exact hs
  | succ count ih =>
    rw [periods_succ, run_bind] at hr
    rcases hu : (periods {} error period count).run s with ⟨_ | _, u⟩
    · rw [hu] at hr
      cases hr
    · rw [hu] at hr
      exact state_of_tickAndFollow (ih hu) hr

/-- **A row with a schedule ends where the row of its running periods ends**, in the mode of the
schedule. The induction is on the periods: before a period the two are at the same station but for the
mode, and a paused period moves neither of them. -/
theorem periods_run (hs : s.controller.state = .running) (schedule : Schedule) (error : Axes α)
    (period : Period) (count : Nat) :
    (periods schedule error period count).run s =
      match (periods {} error period (schedule.running count)).run s with
      | (.ok _, t) => (.ok (), t.withMode (schedule.modeAfter count))
      | (.error f, t) => (.error f, t) := by
  induction count with
  | zero => exact congrArg (Prod.mk _) (withMode_of_running hs).symm
  | succ count ih =>
    rw [periods, run_bind, ih, Schedule.running]
    rcases hr : (periods {} error period (schedule.running count)).run s with ⟨f | _, t⟩
    · cases schedule.modeAfter (count + 1) with
      | paused => simp only [hr]
      | running => simp only [periods_succ, run_bind, hr]
    · have ht := state_of_periods hs hr
      obtain ⟨c, hc, -⟩ := running_core ht
      have hswitch := switch_run (core_withMode hc (schedule.modeAfter count)) schedule count
      rw [withMode_withMode] at hswitch
      change _ = (Except.ok (), t.withMode (schedule.modeAfter (count + 1))) at hswitch
      simp only [run_bind, hswitch]
      cases hm : schedule.modeAfter (count + 1) with
      | paused =>
        simp only [hr]
        exact tickAndFollow_run_of_paused (core_withMode hc .paused) rfl error period
      | running =>
        simp only [periods_succ, run_bind, hr, withMode_of_running ht]
        rcases htick : (tickAndFollow error period).run t with ⟨f | _, u⟩
        · rfl
        · exact congrArg (Prod.mk _)
            (withMode_of_running (state_of_tickAndFollow ht htick)).symm

/-! ## commands along a row -/

/-- A running controller in shape whose handles are places of its bench. -/
structure AtWork (s : Station (Bench α) BenchHandle α) (c : Core α BenchHandle) : Prop where
  core : s.controller.core = some c
  mode : c.mode = .running
  shaped : c.Shaped
  placed : ∀ j ∈ c.handles, j.index < s.hardware.joints.length

theorem AtWork.tickAndFollow (h : s.AtWork c) {error : Axes α} {period : Period}
    (hr : (Station.tickAndFollow error period).run s = (.ok (), t)) :
    ∃ d, t.AtWork d ∧ d.handles = c.handles ∧
      t.hardware.totalWrites = s.hardware.totalWrites + c.handles.length := by
  obtain ⟨d, hd, hmode, rfl⟩ := tickAndFollow_of_running h.core h.mode hr
  have hshaped := h.shaped.obeyed (c.measured s.hardware) (.tick error period) TaskSpace.solve
  have hhandles := c.obeyed_handles (c.measured s.hardware) (.tick error period) TaskSpace.solve
  have hfst := (h.shaped.outgoing_tick h.mode (congrArg Prod.fst hd) s.controller.writes).1
  rw [hd] at hshaped hhandles
  refine ⟨d, ⟨rfl, hmode, hshaped, ?_⟩, hhandles, ?_⟩
  · rw [show d.handles = c.handles from hhandles]
    show ∀ j ∈ c.handles, j.index < (Bench.step _ _ _).joints.length
    rw [Bench.length_step, Bench.length_setAll]
    exact h.placed
  · have hplaced : ∀ x ∈ c.outgoing s.controller.writes (c.measured s.hardware)
        (.tick error period) TaskSpace.solve, x.1.index < s.hardware.joints.length := by
      intro x hx
      refine h.placed x.1 ?_
      rw [← hfst]
      exact List.mem_map_of_mem hx
    show (Bench.step _ _ _).totalWrites = _
    rw [Bench.totalWrites_step, Bench.totalWrites_setAll hplaced, ← hfst, List.length_map]

/-- **A row of periods that succeeds is as many commands to every handle.** -/
theorem AtWork.periods (h : s.AtWork c) {error : Axes α} {period : Period} {count : Nat}
    (hr : (Station.periods {} error period count).run s = (.ok (), t)) :
    ∃ d, t.AtWork d ∧ d.handles = c.handles ∧
      t.hardware.totalWrites = s.hardware.totalWrites + c.handles.length * count := by
  induction count generalizing t with
  | zero =>
    cases hr
    exact ⟨c, h, rfl, rfl⟩
  | succ count ih =>
    rw [periods_succ, run_bind] at hr
    rcases hu : (Station.periods {} error period count).run s with ⟨_ | _, u⟩
    · rw [hu] at hr
      cases hr
    · rw [hu] at hr
      obtain ⟨d, hd, hhandles, hwrites⟩ := ih hu
      obtain ⟨e, he, hhandles', hwrites'⟩ := hd.tickAndFollow hr
      refine ⟨e, he, hhandles'.trans hhandles, ?_⟩
      rw [hwrites', hwrites, hhandles, Nat.mul_succ, Nat.add_assoc]

end Periods

end Station

end ArmServo
