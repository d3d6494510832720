import ArmServo.Proofs.Config.Chain
import ArmServo.Proofs.Controller.Orders
import Mathlib.Data.List.Forall2
import Mathlib.Data.List.Induction

/-!
# The core along a run

Where the core of a controller comes from, at the end of any run: its chain is that of a
configuration that the run has taken up, and its handles are those that the hardware had for the
joints of that configuration when it was taken up.

Main statement: `Station.builtFor_of_after`.
-/

namespace ArmServo

variable {H J α : Type} [Scalar α]

/-- The order makes the controller compute. -/
def Order.isPeriod : Order α → Bool
  | .compute _ _ | .tick _ _ => true
  | _ => false

omit [Scalar α] in
theorem Order.isPeriod_iff {o : Order α} :
    o.isPeriod = true ↔ ∃ error period, o = .compute error period ∨ o = .tick error period := by
  constructor
  · intro ho
    cases o with
    | compute error period => exact ⟨error, period, .inl rfl⟩
    | tick error period => exact ⟨error, period, .inr rfl⟩
    | _ => cases ho
  · rintro ⟨error, period, rfl | rfl⟩ <;> rfl

namespace Core

/-! ## the solver of a core -/

/-- **All that an order can do to the solver** of a core, with the answer to it. -/
inductive Solves (c : Core α J) (measured : List (α × α)) (o : Order α)
    (solve : TaskSpace.Method α) : Except (Failure α) Unit → Solver α → Prop
  | untouched {r : Except (Failure α) Unit}
    (hr : o.isPeriod = true → c.mode = .running → r ≠ .ok ()) : Solves c measured o solve r c.solver
  | started {solver : Solver α} (ho : o = .start) (hs : c.solver.start? measured = .ok solver) :
    Solves c measured o solve (.ok ()) solver
  | stepped {period : Period} {input : Axes α} {r : Except (Failure α) Unit} {solver : Solver α}
    (ho : o.isPeriod = true) (hs : c.solver.Steps period input solve r solver) :
    Solves c measured o solve r solver

theorem Advances.solves {c d : Core α J} {error : Axes α} {period : Period}
    {solve : TaskSpace.Method α} {r : Except (Failure α) Unit}
    (h : c.Advances error period solve r d) (measured : List (α × α)) {o : Order α}
    (ho : o.isPeriod = true) : c.Solves measured o solve r d.solver := by
  cases h with
  | noTime | badError | unbounded | badOutput => exact .untouched fun _ _ h => nomatch h
  | notMoved _ _ _ _ hs => exact .stepped ho hs
  | moved _ _ _ _ hs => exact .stepped ho hs

theorem obeyed_solves (c : Core α J) (measured : List (α × α)) (o : Order α)
    (solve : TaskSpace.Method α) :
    c.Solves measured o solve (c.obeyed measured o solve).1 (c.obeyed measured o solve).2.solver := by
  cases o with
  | start =>
    unfold obeyed
    cases hs : c.solver.start? measured with
    | ok solver => exact .started rfl hs
    | error e => exact .untouched fun h => nomatch h
  | compute error period | tick error period =>
    unfold obeyed
    cases hm : c.mode with
    | paused =>
      refine .untouched fun _ hr => ?_
      rw [hm] at hr
      cases hr
    | running => exact (c.advanced_advances error period solve).solves measured rfl
  | _ => exact .untouched fun h => nomatch h

theorem Solves.kept {c : Core α J} {measured : List (α × α)} {o : Order α}
    {solve : TaskSpace.Method α} {r : Except (Failure α) Unit} {t : Solver α}
    (h : c.Solves measured o solve r t) : t.chain = c.chain ∧ t.limits = c.solver.limits := by
  cases h with
  | untouched => exact ⟨rfl, rfl⟩
  | started _ hs =>
    unfold Solver.start? at hs
    split at hs
    · cases hs
      exact ⟨rfl, rfl⟩
    · cases hs
  | stepped _ hs => exact hs.kept

theorem chain_obeyed (c : Core α J) (measured : List (α × α)) (o : Order α)
    (solve : TaskSpace.Method α) : (c.obeyed measured o solve).2.chain = c.chain :=
  (c.obeyed_solves measured o solve).kept.1

theorem obeyed_of_period {c : Core α J} (hm : c.mode = .running) {o : Order α} {error : Axes α}
    {period : Period} (ho : o = .compute error period ∨ o = .tick error period)
    (measured : List (α × α)) (solve : TaskSpace.Method α) :
    c.obeyed measured o solve = c.advanced error period solve := by
  unfold obeyed
  rcases ho with rfl | rfl <;> rw [hm]

theorem Advances.handles {c d : Core α J} {error : Axes α} {period : Period}
    {solve : TaskSpace.Method α} {r : Except (Failure α) Unit}
    (h : c.Advances error period solve r d) : d.handles = c.handles := by
  cases h <;> rfl

theorem obeyed_handles (c : Core α J) (measured : List (α × α)) (o : Order α)
    (solve : TaskSpace.Method α) : (c.obeyed measured o solve).2.handles = c.handles := by
  cases o with
  | start =>
    unfold obeyed
    cases c.solver.start? measured <;> rfl
  | compute error period | tick error period =>
    unfold obeyed
    cases c.mode with
    | paused => rfl
    | running => exact (c.advanced_advances error period solve).handles
  | _ => rfl

/-! ## where a core comes from -/

/-- The core has been built for a configuration, with the handles that the hardware then had. -/
structure BuiltFor [JointBus H J α] (c : Core α J) (config : Config α) (h : H) : Prop where
  chain : config.chain? = .ok c.chain
  handles : List.Forall₂ (fun joint j => JointBus.handle? h joint = some j) config.joints c.handles
  limits : c.solver.limits = c.chain.limits

variable [JointBus H J α]

theorem BuiltFor.obeyed {c : Core α J} {config : Config α} {h : H} (hb : c.BuiltFor config h)
    (measured : List (α × α)) (o : Order α) (solve : TaskSpace.Method α) :
    (c.obeyed measured o solve).2.BuiltFor config h := by
  obtain ⟨hchain, hlimits⟩ := (c.obeyed_solves measured o solve).kept
  refine ⟨?_, ?_, ?_⟩
  · rw [hb.chain]
    exact congrArg _ hchain.symm
  · rw [obeyed_handles]
    exact hb.handles
  · rw [hlimits, hb.limits]
    exact congrArg _ hchain.symm

end Core

namespace Station

variable [JointBus H J α]

omit [Scalar α] in
theorem findHandles?_eq_ok {h : H} {joints : List String} {handles : List J} :
    (findHandles? h joints : Except (ControlError α) (List J)) = .ok handles ↔
      List.Forall₂ (fun joint j => JointBus.handle? h joint = some j) joints handles := by
  unfold findHandles?
  induction joints generalizing handles with
  | nil =>
    refine ⟨fun hf => ?_, fun hf => ?_⟩
    · cases hf
      exact .nil
    · cases hf
      rfl
  | cons joint joints ih =>
    rw [List.mapM_cons, List.forall₂_cons_left_iff]
    cases hh : (JointBus.handle? h joint : Option J) with
    | none => exact ⟨fun hf => (nomatch hf), fun ⟨_, _, hj, _⟩ => (nomatch hj)⟩
    | some j =>
      simp only [bind_eq_ok]
      constructor
      · rintro ⟨_, hj, js, hjs, hf⟩
        cases hj
        cases hf
        exact ⟨j, js, rfl, ih.mp hjs, rfl⟩
      · rintro ⟨_, js, hj, hjs, rfl⟩
        cases hj
        exact ⟨j, rfl, js, ih.mpr hjs, rfl⟩

/-- **What it takes to build a core**, and the core that is built. -/
theorem buildCore?_eq_ok {writes : CommandKind} {h : H} {config : Config α} {c : Core α J} :
    buildCore? writes h config = .ok c ↔
      config.validate? = .ok () ∧ config.commandKind? = .ok writes ∧
      ∃ chain handles solver, config.chain? = .ok chain ∧
        List.Forall₂ (fun joint j => JointBus.handle? h joint = some j) config.joints handles ∧
        Solver.ofChain? chain config.damping = .ok solver ∧
        c = ⟨.running, .ofGains config.gains, solver, handles, .zero⟩ := by
  unfold buildCore?
  simp only [bind_eq_ok, guard_eq_ok, findHandles?_eq_ok, ne_eq, not_not]
  constructor
  · rintro ⟨_, hvalid, _, hkind, rfl, chain, hchain, handles, hhandles, solver, hsolver, hc⟩
    cases hc
    exact ⟨hvalid, hkind, chain, handles, solver, hchain, hhandles, hsolver, rfl⟩
  · rintro ⟨hvalid, hkind, chain, handles, solver, hchain, hhandles, hsolver, rfl⟩
    exact ⟨(), hvalid, _, hkind, rfl, chain, hchain, handles, hhandles, solver, hsolver, rfl⟩

theorem builtFor_of_buildCore? {writes : CommandKind} {h : H} {config : Config α} {c : Core α J}
    (hb : buildCore? writes h config = .ok c) : c.BuiltFor config h := by
  obtain ⟨-, -, chain, handles, solver, hchain, hhandles, hsolver, rfl⟩ := buildCore?_eq_ok.mp hb
  obtain rfl := Solver.eq_of_ofChain? hsolver
  exact ⟨hchain, hhandles, rfl⟩

/-! ## runs -/

theorem after_concat (s : Station H J α) (events : List (Event H α)) (e : Event H α)
    (solve : TaskSpace.Method α) :
    s.after (events ++ [e]) solve = (s.after events solve).meet e solve := by
  unfold after
  rw [List.foldl_append]
  rfl

/-- A core is changed by an order as `Core.obeyed` says. -/
theorem core_after_concat {s : Station H J α} {events : List (Event H α)}
    {solve : TaskSpace.Method α} {c : Core α J} (hc : (s.after events solve).controller.core = some c)
    (o : Order α) :
    (s.after (events ++ [.order o]) solve).controller.core =
      some (c.obeyed (c.measured (s.after events solve).hardware) o solve).2 := by
  rw [after_concat]
  show ((s.after events solve).obey o solve).2.controller.core = _
  rw [obey_of_core hc]
  rfl

theorem writes_after (s : Station H J α) (events : List (Event H α))
    (solve : TaskSpace.Method α) :
    (s.after events solve).controller.writes = s.controller.writes := by
  induction events using List.reverseRecOn with
  | nil => rfl
  | append_singleton events e ih =>
    rw [after_concat, ← ih]
    cases e with
    | change h => rfl
    | order o => exact writes_obey _ o solve

/-- **An invariant of cores**: what every core is built with, and no order of the run breaks, holds at
the end of the run. -/
theorem core_of_after {P : Core α J → Prop} {s : Station H J α} (hs : s.controller.core = none)
    {solve : TaskSpace.Method α}
    (hbuilt : ∀ (h : H) config c, buildCore? s.controller.writes h config = .ok c → P c)
    (events : List (Event H α))
    (hobeyed : ∀ c measured o, .order o ∈ events → P c → P (c.obeyed measured o solve).2)
    {c : Core α J} (hc : (s.after events solve).controller.core = some c) : P c := by
  induction events using List.reverseRecOn generalizing c with
  | nil =>
    rw [show s.after [] solve = s from rfl, hs] at hc
    cases hc
  | append_singleton events e ih =>
    have hbefore := fun c measured o ho => hobeyed c measured o (List.mem_append_left [e] ho)
    cases e with
    | change h =>
      rw [after_concat] at hc
      exact ih hbefore hc
    | order o =>
      cases hd : (s.after events solve).controller.core with
      | some d =>
        rw [core_after_concat hd] at hc
        cases hc
        exact hobeyed d _ o (List.mem_append_right events List.mem_cons_self) (ih hbefore hd)
      | none =>
        rw [after_concat] at hc
        change ((s.after events solve).obey o solve).2.controller.core = some c at hc
        obtain ⟨e, ho⟩ | ⟨config, d, rfl, hb, ho⟩ := obey_cases_of_no_core hd o solve
        · rw [ho, hd] at hc
          cases hc
        · rw [ho] at hc
          cases hc
          rw [writes_after] at hb
          exact hbuilt _ config c hb

/-- A core stays, with all that no later order breaks, whatever happens. -/
theorem core_after_append_of {P : Core α J → Prop} {s : Station H J α} {events : List (Event H α)}
    {solve : TaskSpace.Method α} {c : Core α J} (hc : (s.after events solve).controller.core = some c)
    (hP : P c) (later : List (Event H α))
    (hobeyed : ∀ c measured o, .order o ∈ later → P c → P (c.obeyed measured o solve).2) :
    ∃ d, (s.after (events ++ later) solve).controller.core = some d ∧ P d := by
  induction later using List.reverseRecOn with
  | nil => exact ⟨c, by rwa [List.append_nil], hP⟩
  | append_singleton later e ih =>
    obtain ⟨d, hd, hP⟩ := ih fun c measured o ho =>
      hobeyed c measured o (List.mem_append_left [e] ho)
    rw [← List.append_assoc]
    cases e with
    | change h => exact ⟨d, by rw [after_concat]; exact hd, hP⟩
    | order o =>
      exact ⟨_, core_after_concat hd o,
        hobeyed d _ o (List.mem_append_right later List.mem_cons_self) hP⟩

/-- A core stays, with its chain and its handles, whatever happens later. -/
theorem core_after_append {s : Station H J α} {events : List (Event H α)}
    {solve : TaskSpace.Method α} {c : Core α J} (hc : (s.after events solve).controller.core = some c)
    (later : List (Event H α)) :
    ∃ d, (s.after (events ++ later) solve).controller.core = some d ∧ d.chain = c.chain ∧
      d.handles = c.handles :=
  core_after_append_of hc ⟨rfl, rfl⟩ later fun d measured o _ hd =>
    ⟨(d.chain_obeyed measured o solve).trans hd.1, (d.obeyed_handles measured o solve).trans hd.2⟩

/-- In the course of a run a controller without a core has taken up a configuration, with the
hardware as it then was. -/
def TookUp (s : Station H J α) (events : List (Event H α)) (solve : TaskSpace.Method α)
    (config : Config α) (h : H) : Prop :=
  ∃ before after, events = before ++ .order (.configure config) :: after ∧
    (s.after before solve).controller.core = none ∧ (s.after before solve).hardware = h ∧
    ((s.after before solve).obey (.configure config) solve).1 = .ok ()

theorem TookUp.concat {s : Station H J α} {events : List (Event H α)}
    {solve : TaskSpace.Method α} {config : Config α} {h : H} (ht : s.TookUp events solve config h)
    (e : Event H α) : s.TookUp (events ++ [e]) solve config h := by
  obtain ⟨before, after, rfl, hs⟩ := ht
  exact ⟨before, after ++ [e], by rw [List.append_assoc, List.cons_append], hs⟩

/-- **Where a core comes from**: from a configuration that has been taken up in the course of the
run, with the handles that the hardware had at that time. -/
theorem builtFor_of_after {s : Station H J α} (hs : s.controller.core = none)
    (events : List (Event H α)) (solve : TaskSpace.Method α) {c : Core α J}
    (hc : (s.after events solve).controller.core = some c) :
    ∃ config h, s.TookUp events solve config h ∧ c.BuiltFor config h := by
  induction events using List.reverseRecOn generalizing c with
  | nil =>
    rw [show s.after [] solve = s from rfl, hs] at hc
    cases hc
  | append_singleton events e ih =>
    cases e with
    | change h =>
      rw [after_concat] at hc
      obtain ⟨config, h₀, ht, hb⟩ := ih hc
      exact ⟨config, h₀, ht.concat _, hb⟩
    | order o =>
      cases hd : (s.after events solve).controller.core with
      | some d =>
        obtain ⟨config, h₀, ht, hb⟩ := ih hd
        rw [core_after_concat hd] at hc
        cases hc
        exact ⟨config, h₀, ht.concat _, hb.obeyed _ o solve⟩
      | none =>
        rw [after_concat] at hc
        change ((s.after events solve).obey o solve).2.controller.core = some c at hc
        obtain ⟨e, ho⟩ | ⟨config, d, rfl, hb, ho⟩ := obey_cases_of_no_core hd o solve
        · rw [ho, hd] at hc
          cases hc
        · have hr := ho
          rw [ho] at hc
          cases hc
          exact ⟨config, _, ⟨events, [], rfl, hd, rfl, by rw [hr]⟩, builtFor_of_buildCore? hb⟩

end Station

end ArmServo
