import ArmServo.CommandLine.Program
import ArmServo.Proofs.Controller.Acceptance
import ArmServo.Proofs.Controller.Schedule

/-!
# A run, part by part

A run is prepared from a configuration and options. What is prepared is simulated: a controller is set
up at a new bench, started, and given its periods. A controller that has been set up is at work when
its periods begin, so that a run fails or stops only where it is prepared, where its controller is set
up, in a period, or when the time gets out of range.

Main statements: `runConfig?_of_prepared`, `simulate?_of_core`.
-/

namespace ArmServo.CommandLine

/-! ## preparing -/

/-- The kind of command, the period and the input of a run, or the first fault of its options. -/
def prepare? (c : Config Float) (o : RunOptions) :
    Except (CommandError Float) (CommandKind × Period × RunInput Float) := do
  c.validate?.mapError .invalidConfig
  let kind ← c.commandKind?.mapError .refused
  checkSchedule o.schedule
  let error ← readError? o.error
  let start ← readStart? c.joints.length o.start
  let period ← c.period?.mapError .refused
  pure (kind, period, ⟨error, start, o.ticks, o.schedule⟩)

/-- What is found in a configuration and options when there is no fault. -/
structure Prepared (c : Config Float) (o : RunOptions) (kind : CommandKind) (period : Period)
    (error : Axes Float) (start : List Float) : Prop where
  valid : c.validate? = .ok ()
  kind : c.commandKind? = .ok kind
  schedule : checkSchedule o.schedule = .ok ()
  error : readError? o.error = .ok error
  start : readStart? c.joints.length o.start = .ok start
  period : c.period? = .ok period

variable {c : Config Float} {o : RunOptions} {kind : CommandKind} {period : Period}
  {error : Axes Float} {start : List Float}

theorem prepare?_eq_ok_iff {input : RunInput Float} :
    prepare? c o = .ok (kind, period, input) ↔ ∃ error start, Prepared c o kind period error start ∧
      input = ⟨error, start, o.ticks, o.schedule⟩ := by
  unfold prepare?
  simp only [bind_eq_ok, mapError_eq_ok]
  constructor
  · rintro ⟨_, hvalid, kind', hkind, _, hschedule, error, herror, start, hstart, period', hperiod, h⟩
    cases h
    exact ⟨error, start, ⟨hvalid, hkind, hschedule, herror, hstart, hperiod⟩, rfl⟩
  · rintro ⟨error, start, h, rfl⟩
    exact ⟨(), h.valid, kind, h.kind, (), h.schedule, error, h.error, start, h.start, period,
      h.period, rfl⟩

theorem runConfig?_eq (c : Config Float) (o : RunOptions) :
    runConfig? c o = match prepare? c o with
      | .ok (kind, period, input) => simulate? c kind period input
      | .error e => .error (.failed e) := by
  show (prepare? c o).mapError Interruption.failed >>= _ = _
  cases prepare? c o <;> rfl

/-- **What is prepared is simulated.** -/
theorem runConfig?_of_prepared (h : Prepared c o kind period error start) :
    runConfig? c o = simulate? c kind period ⟨error, start, o.ticks, o.schedule⟩ := by
  rw [runConfig?_eq, prepare?_eq_ok_iff.mpr ⟨error, start, h, rfl⟩]

theorem prepared_or_failed (c : Config Float) (o : RunOptions) :
    (∃ kind period error start, Prepared c o kind period error start) ∨
      ∃ e, runConfig? c o = .error (.failed e) := by
  rw [runConfig?_eq]
  cases hp : prepare? c o with
  | error e => exact .inr ⟨e, rfl⟩
  | ok prepared =>
    obtain ⟨kind, period, input⟩ := prepared
    obtain ⟨error, start, h, -⟩ := prepare?_eq_ok_iff.mp hp
    exact .inl ⟨kind, period, error, start, h⟩

/-! ## setting up -/

/-- The bench of a run, with the joints of its configuration where they start. -/
def runBench (c : Config Float) (start : List Float) : Bench Float := .ofList (c.joints.zip start)

/-- The station of a run when its periods begin. -/
def begun (c : Config Float) (kind : CommandKind) (start : List Float)
    (core : Core Float BenchHandle) : Station (Bench Float) BenchHandle Float :=
  (freshStation c kind start).withCore (core.started (core.measured (runBench c start)))

variable {core : Core Float BenchHandle}

/-- **When its periods begin the controller is at work**, with one handle for every joint. -/
theorem atWork_begun (hb : Station.buildCore? kind (runBench c start) c = .ok core) :
    (begun c kind start core).AtWork (core.started (core.measured (runBench c start))) ∧
      core.handles.length = c.joints.length := by
  have hshaped := Station.shaped_of_buildCore? hb
  have hbuilt := Station.builtFor_of_buildCore? hb
  have hstarted := hshaped.obeyed (core.measured (runBench c start)) .start TaskSpace.solve
  rw [hshaped.obeyed_start (core.length_measured _)] at hstarted
  refine ⟨⟨rfl, rfl, hstarted, ?_⟩, hbuilt.handles.length_eq.symm⟩
  intro j hj
  obtain ⟨name, -, hname⟩ := exists_of_forall₂ hbuilt.handles.flip hj
  obtain ⟨-, joint, hjoint, -⟩ := Bench.joint_of_handle? hname
  exact (List.getElem?_eq_some_iff.mp hjoint).1

/-- **What is simulated**: the periods of a controller that has been set up and started. -/
theorem simulate?_of_core (hb : Station.buildCore? kind (runBench c start) c = .ok core)
    (ticks : Nat) (schedule : Schedule) :
    simulate? c kind period ⟨error, start, ticks, schedule⟩ =
      if period.nanos * 2 < Period.bound then
        match (Station.runPeriods schedule error period ticks 0 .zero).run
            (begun c kind start core) with
        | (.ok _, s) => .ok s
        | (.error f, _) => .error (.ofFailure .refused f)
      else .error .stopped := by
  have hconfigure : (Station.configure c).run (freshStation c kind start) =
      (.ok (), (freshStation c kind start).withCore core) :=
    Station.obey_configure_of_buildCore? hb
  have hstart : (Station.start).run ((freshStation c kind start).withCore core) =
      (.ok (), begun c kind start core) :=
    Station.obey_start (Station.withCore_core _ core) (Station.shaped_of_buildCore? hb)
      TaskSpace.solve
  unfold simulate? Station.runSchedule Period.times?
  rw [hconfigure]
  dsimp only
  rw [run_bind, hstart]
  dsimp only
  by_cases hgap : period.nanos * 2 < Period.bound
  · rw [if_pos hgap, if_pos hgap]
    dsimp only
    rcases (Station.runPeriods schedule error period ticks 0 .zero).run (begun c kind start core)
      with ⟨_ | _, s⟩ <;> rfl
  · rw [if_neg hgap, if_neg hgap]
    rfl

theorem simulate?_of_refused {e : ControlError Float}
    (hb : Station.buildCore? kind (runBench c start) c = .error e) (input : RunInput Float)
    (hinput : input.start = start) : simulate? c kind period input = .error (.failed (.notReady e)) := by
  subst hinput
  have hconfigure : (Station.configure c).run (freshStation c kind input.start) =
      (.error (.refused e), freshStation c kind input.start) :=
    Station.obey_configure_of_refused hb
  unfold simulate?
  rw [hconfigure]
  rfl

end ArmServo.CommandLine
