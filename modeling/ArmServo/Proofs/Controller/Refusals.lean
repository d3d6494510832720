import ArmServo.CommandLine.Program
import ArmServo.Controller.Query
import ArmServo.Proofs.Chain.Shape
import ArmServo.Proofs.Config.Faults
import ArmServo.Proofs.Controller.Lifecycle

/-!
# Refusals and the stage they belong to

What a configuration text or a file is refused for lies in the configuration, and is said to. What a
controller is refused for once it has a core does not. In between, taking up a configuration has two
kinds of refusals: those of its parameters, its joints and its kind of command are said to lie in the
configuration, those of its run from base to tip are not.

Main statement: `marked_up_to_runs`.
-/

namespace ArmServo

variable {H J α : Type} [Scalar α]

/-! ## reading -/

theorem Config.isConfiguration_of_ofText? {text : String} {e : ControlError Float}
    (h : ofText? text = .error e) : e.isConfiguration = true := by
  unfold ofText? at h
  split at h
  · cases h
  · cases h
    rfl

theorem Config.isConfiguration_of_ofBytes? {bytes : ByteArray} {e : ControlError Float}
    (h : ofBytes? bytes = .error e) : e.isConfiguration = true := by
  unfold ofBytes? at h
  split at h
  · exact isConfiguration_of_ofText? h
  · cases h
    rfl

/-- A file is refused because it cannot be read or because of what is in it. -/
theorem CommandLine.isConfiguration_of_load? {files : Files} {path : String}
    {e : CommandError Float} (h : load? files path = .error e) :
    ∃ refusal, e = .notLoaded path refusal ∧ refusal.isConfiguration = true := by
  obtain ⟨refusal, hrefusal, rfl⟩ := mapError_eq_error.mp h
  refine ⟨refusal, rfl, ?_⟩
  obtain hread | ⟨bytes, -, hbytes⟩ := bind_eq_error.mp hrefusal
  · obtain ⟨fault, -, rfl⟩ := mapError_eq_error.mp hread
    rfl
  · exact Config.isConfiguration_of_ofBytes? hbytes

/-! ## taking up a configuration -/

theorem Solver.isConfiguration_of_ofChain? {chain : Chain α} {damping : α} {e : ControlError α}
    (h : ofChain? chain damping = .error e) : e.isConfiguration = true := by
  unfold ofChain? at h
  split at h
  · cases h
    rfl
  · cases h

namespace Station

variable [JointBus H J α]

omit [Scalar α] in
theorem isConfiguration_of_findHandles? {h : H} {joints : List String} {e : ControlError α}
    (he : (findHandles? h joints : Except (ControlError α) (List J)) = .error e) :
    e.isConfiguration = true := by
  unfold findHandles? at he
  induction joints with
  | nil => cases he
  | cons joint joints ih =>
    rw [List.mapM_cons] at he
    cases hj : (JointBus.handle? h joint : Option J) with
    | none =>
      rw [hj] at he
      cases he
      rfl
    | some j =>
      rw [hj] at he
      obtain hj | ⟨_, -, hrest⟩ := bind_eq_error.mp he
      · cases hj
      · obtain hjs | ⟨_, -, hok⟩ := bind_eq_error.mp hrest
        · exact ih hjs
        · cases hok

/-- **Why no core can be built**: for a reason that is said to lie in the configuration, or because
there is no run from base to tip although all parameters are in order. -/
theorem buildCore?_eq_error_cases {writes : CommandKind} {h : H} {c : Config α}
    {e : ControlError α} (he : (buildCore? writes h c : Except _ (Core α J)) = .error e) :
    e.isConfiguration = true ∨ c.validate? = .ok () ∧ c.commandKind = some writes ∧
      ∃ k, c.run? = .error k ∧ e = .kinematics k := by
  unfold buildCore? at he
  simp only [bind_eq_error, guard_eq_error, ne_eq, not_not] at he
  rcases he with hvalid | ⟨_, hvalid, hkind | ⟨kind, hkind, ⟨-, rfl⟩ | ⟨rfl, hchain |
    ⟨chain, -, hhandles | ⟨handles, -, hsolver | ⟨solver, -, hok⟩⟩⟩⟩⟩⟩
  case inl => exact .inl (Config.isConfiguration_of_validate? hvalid)
  case inr.inl =>
    unfold Config.commandKind? at hkind
    split at hkind
    · cases hkind
    · cases hkind
      exact .inl rfl
  case inr.inr.inl => exact .inl rfl
  case inr.inr.inr.inl =>
    rcases Config.chain?_eq_error_iff.mp hchain with hv | ⟨-, ⟨k, hk, rfl⟩ | ⟨_, -, -, rfl⟩⟩
    · exact .inl (Config.isConfiguration_of_validate? hv)
    · exact .inr ⟨hvalid, Config.commandKind?_eq_ok_iff.mp hkind, k, hk, rfl⟩
    · exact .inl rfl
  case inr.inr.inr.inr.inl => exact .inl (isConfiguration_of_findHandles? hhandles)
  case inr.inr.inr.inr.inr.inl => exact .inl (Solver.isConfiguration_of_ofChain? hsolver)
  case inr.inr.inr.inr.inr.inr => cases hok

theorem buildCore?_of_run?_eq_error {writes : CommandKind} {h : H} {c : Config α}
    {k : ChainError α} (hvalid : c.validate? = .ok ()) (hkind : c.commandKind = some writes)
    (hk : c.run? = .error k) :
    (buildCore? writes h c : Except _ (Core α J)) = .error (.kinematics k) := by
  have hchain : c.chain? = .error (.kinematics k) :=
    Config.chain?_eq_error_iff.mpr (.inr ⟨hvalid, .inl ⟨k, hk, rfl⟩⟩)
  unfold buildCore?
  simp only [bind_eq_error, guard_eq_error, ne_eq, not_not]
  exact .inr ⟨(), hvalid, .inr ⟨writes, Config.commandKind?_eq_ok_iff.mpr hkind,
    .inr ⟨rfl, .inl hchain⟩⟩⟩

end Station

/-! ## a controller with a core -/

namespace Core

theorem Shaped.refusal_advanced {c : Core α J} (hc : c.Shaped) {error : Axes α} {period : Period}
    {solve : TaskSpace.Method α} {e : ControlError α}
    (h : (c.advanced error period solve).1 = .error (.refused e)) :
    (∃ period, e = .invalidPeriod period) ∨ ∃ quantity, e = .nonFinite quantity := by
  have ha := c.advanced_advances error period solve
  rw [h] at ha
  generalize (c.advanced error period solve).2 = d at ha
  cases ha with
  | noTime => exact .inl ⟨_, rfl⟩
  | badError => exact .inr ⟨_, rfl⟩
  | badOutput => exact .inr ⟨_, rfl⟩
  | notMoved _ _ _ _ hs => exact .inl ⟨_, hs.noTime_of_refused hc.solver⟩

/-- **What an order is refused for once there is a core**: a period without time, or a number that
is not finite. -/
theorem Shaped.refusal_obeyed {c : Core α J} (hc : c.Shaped) {measured : List (α × α)}
    (hm : measured.length = c.handles.length) {o : Order α} {solve : TaskSpace.Method α}
    {e : ControlError α} (h : (c.obeyed measured o solve).1 = .error (.refused e)) :
    (∃ period, e = .invalidPeriod period) ∨ ∃ quantity, e = .nonFinite quantity := by
  have hperiod : ∀ {error period}, o = .compute error period ∨ o = .tick error period →
      (∃ period, e = .invalidPeriod period) ∨ ∃ quantity, e = .nonFinite quantity := by
    intro error period ho
    cases hmode : c.mode with
    | paused =>
      unfold Core.obeyed at h
      rcases ho with rfl | rfl <;> rw [hmode] at h <;> cases h
    | running =>
      rw [obeyed_of_period hmode ho] at h
      exact hc.refusal_advanced h
  cases o with
  | start =>
    rw [hc.obeyed_start hm] at h
    cases h
  | compute error period => exact hperiod (.inl rfl)
  | tick error period => exact hperiod (.inr rfl)
  | _ => cases h

end Core

theorem Chain.pose?_eq_error {c : Chain α} {q : List α} (hq : q.length = c.dof) {frame : String}
    {k : ChainError α} (h : c.pose? q frame = .error k) : k = .frameNotFound frame := by
  cases hi : c.frameIndex? frame with
  | none =>
    unfold pose? at h
    rw [checkDimension_eq_ok.mpr hq, hi] at h
    cases h
    rfl
  | some i =>
    rw [pose?_eq_ok hq hi] at h
    cases h

/-- What is refused, if anything is. -/
def Reply.refusal? : Reply α → Option (ControlError α)
  | .done (.error (.refused e)) | .pose (.error e) | .axes (.error e) | .tensor (.error e) => some e
  | _ => none

omit [Scalar α] in
theorem Reply.refusal?_pose {r : Except (ControlError α) (Pose α)} {e : ControlError α} :
    (Reply.pose r).refusal? = some e ↔ r = .error e := by
  cases r <;> simp [refusal?]

omit [Scalar α] in
theorem Reply.refusal?_axes {r : Except (ControlError α) (Axes α)} {e : ControlError α} :
    (Reply.axes r).refusal? = some e ↔ r = .error e := by
  cases r <;> simp [refusal?]

omit [Scalar α] in
theorem Reply.refusal?_tensor {r : Except (ControlError α) (Tensor α)} {e : ControlError α} :
    (Reply.tensor r).refusal? = some e ↔ r = .error e := by
  cases r <;> simp [refusal?]

namespace Controller

omit [Scalar α] in
/-- What is done with a chain is refused because there is no core, or by the chain. -/
theorem core?_bind_eq_error {β : Type} {c : Controller α J} {e : ControlError α}
    {f : Core α J → Except (ChainError α) β}
    (h : (do (f (← c.core?)).mapError ControlError.kinematics) = .error e) :
    e = .notInitialized ∨ ∃ core k, c.core = some core ∧ f core = .error k ∧ e = .kinematics k := by
  unfold core? at h
  cases hc : c.core with
  | none =>
    rw [hc] at h
    cases h
    exact .inl rfl
  | some core =>
    rw [hc] at h
    obtain ⟨k, hk, rfl⟩ := mapError_eq_error.mp h
    exact .inr ⟨core, k, rfl, hk, rfl⟩

/-- **What a question is refused for**: there is no core, or the chain does not have the frame. -/
theorem refusal?_ask {c : Controller α J} (hc : ∀ core, c.core = some core → core.Shaped)
    {q : Query α} {e : ControlError α} (h : (c.ask q).refusal? = some e) :
    e = .notInitialized ∨ ∃ frame, e = .kinematics (.frameNotFound frame) := by
  have hrotation : ∀ {β : Type} {frame} {f : Rotation α → β},
      (do pure (f (← c.rotationToBase? frame))) = Except.error e →
        e = .notInitialized ∨ ∃ frame, e = .kinematics (.frameNotFound frame) := by
    intro β frame f hr
    obtain hr | ⟨_, -, hok⟩ := bind_eq_error.mp hr
    · obtain h | ⟨core, k, hcore, hk, rfl⟩ := core?_bind_eq_error hr
      · exact .inl h
      · have hpose := map_eq_error.mp hk
        rw [Chain.pose?_eq_error (hc core hcore).solver.positions hpose]
        exact .inr ⟨frame, rfl⟩
    · cases hok
  cases q with
  | tipPose =>
    obtain h | ⟨core, k, hcore, hk, -⟩ := core?_bind_eq_error (Reply.refusal?_pose.mp h)
    · exact .inl h
    · have hok : core.chain.tipPose? core.positions = .ok _ :=
        Chain.tipPose?_eq_ok (hc core hcore).solver.positions
      rw [hok] at hk
      cases hk
  | framePose frame =>
    obtain h | ⟨core, k, hcore, hk, rfl⟩ := core?_bind_eq_error (Reply.refusal?_pose.mp h)
    · exact .inl h
    · rw [Chain.pose?_eq_error (hc core hcore).solver.positions hk]
      exact .inr ⟨frame, rfl⟩
  | expressInBase v frame => exact hrotation (Reply.refusal?_axes.mp h)
  | expressInFrame v frame => exact hrotation (Reply.refusal?_axes.mp h)
  | expressTensorInBase k frame => exact hrotation (Reply.refusal?_tensor.mp h)

end Controller

/-! ## along a run -/

namespace Station

section Runs

variable [JointBus H J α] {s : Station H J α} {events : List (Event H α)}
  {solve : TaskSpace.Method α}

/-- **What an order is refused for** if it does not take up a configuration. -/
theorem refusal_obey (hs : s.controller.core = none) {o : Order α}
    (ho : ∀ config, o ≠ .configure config) {e : ControlError α}
    (h : ((s.after events solve).obey o solve).1 = .error (.refused e)) :
    e = .notInitialized ∨ (∃ period, e = .invalidPeriod period) ∨
      ∃ quantity, e = .nonFinite quantity := by
  cases hc : (s.after events solve).controller.core with
  | none =>
    rw [obey_of_no_core hc] at h
    cases o with
    | configure config => exact absurd rfl (ho config)
    | _ =>
      cases h
      exact .inl rfl
  | some c =>
    rw [obey_of_core hc] at h
    exact .inr ((shaped_of_after hs events hc).refusal_obeyed (c.length_measured _) h)

/-- **What a configuration is refused for.** -/
theorem refusal_configure {config : Config α} {f : Failure α}
    (h : ((s.after events solve).obey (.configure config) solve).1 = .error f) :
    ∃ e, f = .refused e ∧ (e.isConfiguration = true ∨ ∃ k, e = .kinematics k) := by
  cases hc : (s.after events solve).controller.core with
  | none =>
    rw [obey_of_no_core hc] at h
    dsimp only at h
    cases hb : (buildCore? (s.after events solve).controller.writes (s.after events solve).hardware
        config : Except _ (Core α J)) with
    | ok c =>
      rw [hb] at h
      cases h
    | error e =>
      rw [hb] at h
      cases h
      exact ⟨e, rfl, (buildCore?_eq_error_cases hb).imp_right fun ⟨_, _, k, _, hk⟩ => ⟨k, hk⟩⟩
  | some c =>
    rw [obey_of_core hc] at h
    cases h

/-- **When a configuration is refused for its run**: everything that is tested before is in order. -/
theorem refused_for_run_iff {config : Config α} {k : ChainError α} :
    ((s.after events solve).obey (.configure config) solve).1 =
        .error (.refused (.kinematics k)) ↔
      (s.after events solve).controller.state = .uninitialized ∧ config.validate? = .ok () ∧
        config.commandKind = some s.controller.writes ∧ config.run? = .error k := by
  rw [state_eq_uninitialized_iff, ← writes_after s events solve]
  cases hc : (s.after events solve).controller.core with
  | none =>
    rw [obey_of_no_core hc]
    dsimp only
    constructor
    · intro h
      cases hb : (buildCore? (s.after events solve).controller.writes
          (s.after events solve).hardware config : Except _ (Core α J)) with
      | ok c =>
        rw [hb] at h
        cases h
      | error e =>
        rw [hb] at h
        cases h
        obtain hmarked | ⟨hvalid, hkind, _, hk, he⟩ := buildCore?_eq_error_cases hb
        · cases hmarked
        · cases he
          exact ⟨rfl, hvalid, hkind, hk⟩
    · rintro ⟨-, hvalid, hkind, hk⟩
      rw [buildCore?_of_run?_eq_error hvalid hkind hk]
  | some c =>
    rw [obey_of_core hc]
    exact ⟨nofun, nofun⟩

end Runs

/-- **Refusals that lie in the configuration are marked, up to the run from base to tip.** Texts and
files are refused with the mark. A configuration is refused with the mark too, or else by its chain,
which happens exactly if no configuration has been taken up, its parameters are in order, its kind of
command is the one that is written and its description does not lead from base to tip. Nothing that a
controller is refused at work has the mark; none of it comes from the chain, but for frames that are
asked for and not there. -/
theorem marked_up_to_runs [JointBus H J Float] {s : Station H J Float}
    (hs : s.controller.core = none) (events : List (Event H Float))
    (solve : TaskSpace.Method Float) :
    (∀ text e, Config.ofText? text = .error e → e.isConfiguration = true) ∧
    (∀ files path e, CommandLine.load? files path = .error e →
      ∃ refusal, e = .notLoaded path refusal ∧ refusal.isConfiguration = true) ∧
    (∀ config f, ((s.after events solve).obey (.configure config) solve).1 = .error f →
      ∃ e, f = .refused e ∧ (e.isConfiguration = true ∨ ∃ k, e = .kinematics k)) ∧
    (∀ config k, ((s.after events solve).obey (.configure config) solve).1 =
        .error (.refused (.kinematics k)) ↔
      (s.after events solve).controller.state = .uninitialized ∧ config.validate? = .ok () ∧
        config.commandKind = some s.controller.writes ∧ config.RunFault k) ∧
    (∀ o e, (∀ config, o ≠ .configure config) →
      ((s.after events solve).obey o solve).1 = .error (.refused e) →
        e.isConfiguration = false ∧ ∀ k, e ≠ .kinematics k) ∧
    ∀ q e, ((s.after events solve).controller.ask q).refusal? = some e →
      e.isConfiguration = false ∧
        (e = .notInitialized ∨ ∃ frame, e = .kinematics (.frameNotFound frame)) := by
  refine ⟨fun _ _ => Config.isConfiguration_of_ofText?,
    fun _ _ _ => CommandLine.isConfiguration_of_load?, fun _ _ => refusal_configure,
    fun config k => ?_, fun o e ho h => ?_, fun q e h => ?_⟩
  · rw [refused_for_run_iff]
    refine and_congr_right fun _ => and_congr_right fun hvalid => and_congr_right fun _ => ?_
    obtain ⟨-, -, -, -, hne, -⟩ := Config.validate?_eq_ok_iff.mp hvalid
    exact Config.run?_eq_error_iff hne
  · obtain rfl | ⟨_, rfl⟩ | ⟨_, rfl⟩ := refusal_obey hs ho h
    · exact ⟨rfl, nofun⟩
    · exact ⟨rfl, nofun⟩
    · exact ⟨rfl, nofun⟩
  · have hasked := Controller.refusal?_ask (fun c hc => shaped_of_after hs events hc) h
    refine ⟨?_, hasked⟩
    obtain rfl | ⟨_, rfl⟩ := hasked
    · rfl
    · rfl

/-- The arm with its hand for a base and the floor for a tip. -/
def reversedArm : Config Float :=
  { Sample.arm with rootFrame := some "floor", baseFrame := "hand", tipFrame := "floor" }

/-- The description of the arm has no fault, but it does not lead from the hand to the floor. -/
theorem runFault_reversedArm : reversedArm.RunFault (.tipBeforeBase "hand" "floor") := by
  have hdescription : ∃ full, reversedArm.description? = .ok full :=
    exists_ok_of_isOk (by decide +kernel)
  exact .cut ((Config.exists_description?_iff (by decide)).mp hdescription)
    (.backwards (i := 3) (j := 0) rfl rfl (by decide))

/-- The arm turned round has all its parameters in order, so it is refused for its run, without the
mark. -/
theorem reversedArm_is_refused_unmarked :
    (Sample.station.obey (.configure reversedArm)).1 =
        .error (.refused (.kinematics (.tipBeforeBase "hand" "floor"))) ∧
      (ControlError.kinematics (.tipBeforeBase "hand" "floor") :
        ControlError Float).isConfiguration = false := by
  obtain ⟨-, -, -, hrun, -⟩ := marked_up_to_runs (s := Sample.station) rfl [] TaskSpace.solve
  have hvalid : reversedArm.validate? = .ok () := by decide +kernel
  exact ⟨(hrun reversedArm _).mpr ⟨rfl, hvalid, rfl, runFault_reversedArm⟩, rfl⟩

/-- Not every refusal of a configuration is marked. -/
theorem some_configurations_are_refused_unmarked :
    ¬ ∀ (config : Config Float) (e : ControlError Float),
      (Sample.station.obey (.configure config)).1 = .error (.refused e) →
        e.isConfiguration = true := by
  intro h
  have hrefused : (Sample.station.obey (.configure reversedArm)).1 =
      .error (.refused (.kinematics (.tipBeforeBase "hand" "floor"))) := by decide +kernel
  cases h reversedArm _ hrefused

end Station

end ArmServo
