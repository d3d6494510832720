import ArmServo.CommandLine.Check
import ArmServo.Proofs.Controller.Acceptance
import ArmServo.Proofs.Hardware.Bench

/-!
# What a check does not see

A check builds the chain, but no solver. A configuration that passes it is therefore taken up, by a
controller of its kind and a bench with its joints, exactly if its damping is finite and not negative,
which only the solver tests.

Main statement: `checked_up_to_damping`.
-/

namespace ArmServo.CommandLine

open Binary64

theorem checkConfig?_eq_ok_iff {α : Type} [Scalar α] {c : Config α} {found : Findings α} :
    checkConfig? c = .ok found ↔ c.chain? = .ok found.chain ∧ c.commandKind? = .ok found.kind ∧
      c.period? = .ok found.period := by
  unfold checkConfig?
  cases hchain : c.chain? with
  | error e => exact ⟨fun h => (nomatch h), fun h => (nomatch h.1)⟩
  | ok chain =>
    cases hkind : c.commandKind? with
    | error e => exact ⟨fun h => (nomatch h), fun h => (nomatch h.2.1)⟩
    | ok kind =>
      cases hperiod : c.period? with
      | error e => exact ⟨fun h => (nomatch h), fun h => (nomatch h.2.2)⟩
      | ok period =>
        constructor
        · intro h
          cases h
          exact ⟨rfl, rfl, rfl⟩
        · rintro ⟨hc, hk, hp⟩
          cases hc
          cases hk
          cases hp
          rfl

theorem exists_handle?_of_mem {b : Bench Float} {name : String} (h : name ∈ b.names) :
    ∃ j : BenchHandle, JointBus.handle? b name = some j := by
  obtain ⟨i, hi⟩ := Option.isSome_iff_exists.mp
    (List.findIdx?_isSome (p := (· == name)).trans (List.any_eq_true.mpr ⟨name, h, beq_self_eq_true _⟩))
  refine ⟨⟨name, i⟩, ?_⟩
  show b.handle? name = _
  rw [Bench.handle?, Bench.index?_eq_names, hi]
  rfl

/-- Behind a check, building a core is building its solver. -/
theorem buildCore?_of_checked {c : Config Float} {found : Findings Float} {b : Bench Float}
    {handles : List BenchHandle} (hc : checkConfig? c = .ok found)
    (hhandles : List.Forall₂ (fun joint j => JointBus.handle? b joint = some j) c.joints handles) :
    Station.buildCore? found.kind b c = (Solver.ofChain? found.chain c.damping).map fun solver =>
      (⟨.running, .ofGains c.gains, solver, handles, .zero⟩ : Core Float BenchHandle) := by
  obtain ⟨hchain, hkind, -⟩ := checkConfig?_eq_ok_iff.mp hc
  obtain ⟨hvalid, -⟩ := Config.chain?_eq_ok_iff.mp hchain
  unfold Station.buildCore?
  rw [hvalid, hkind, hchain, Station.findHandles?_eq_ok.mpr hhandles]
  show (if found.kind ≠ found.kind then _ else _) = _
  rw [if_neg (not_not_intro rfl)]
  show (Solver.ofChain? found.chain c.damping >>= _) = _
  cases Solver.ofChain? found.chain c.damping <;> rfl

/-- **What passes a check is taken up, but for its damping.** -/
theorem checked_up_to_damping {c : Config Float} {found : Findings Float} {b : Bench Float}
    (hc : checkConfig? c = .ok found) (hb : ∀ joint ∈ c.joints, joint ∈ b.names) :
    ((Station.fresh found.kind b : Station (Bench Float) BenchHandle Float).obey
        (.configure c)).1 =
      if c.damping.isFinite && decide (0 ≤ c.damping) then .ok ()
      else .error (.refused (.configuration (.invalidDamping c.damping))) := by
  obtain ⟨handles, hhandles⟩ := exists_forall₂_iff.mpr fun joint hj =>
    exists_handle?_of_mem (hb joint hj)
  have hbuild := buildCore?_of_checked hc hhandles
  by_cases hdamping : c.damping.isFinite = true ∧ 0 ≤ c.damping
  · obtain ⟨solver, hsolver⟩ := (Solver.exists_ofChain?_iff_le found.chain).mpr hdamping
    rw [hsolver] at hbuild
    rw [Station.obey_configure_of_buildCore? hbuild, if_pos (by simpa using hdamping)]
  · rw [Solver.ofChain?_of_not_le hdamping] at hbuild
    rw [Station.obey_configure_of_refused hbuild, if_neg (by simpa using hdamping)]

/-- The arm with a damping below zero. -/
def undampedArm : Config Float := { Sample.arm with damping := -1.0 }

theorem exists_checkConfig?_undampedArm : ∃ found, checkConfig? undampedArm = .ok found :=
  exists_ok_of_isOk (by decide +kernel)

/-- The arm passes the check with a damping below zero, and is refused for it. -/
theorem undampedArm_is_refused :
    ∃ found, checkConfig? undampedArm = .ok found ∧
      ((Station.fresh found.kind Sample.bench : Station _ BenchHandle Float).obey
        (.configure undampedArm)).1 =
          .error (.refused (.configuration (.invalidDamping (-1.0)))) := by
  obtain ⟨found, hfound⟩ := exists_checkConfig?_undampedArm
  refine ⟨found, hfound, ?_⟩
  have hbench : ∀ joint ∈ undampedArm.joints, joint ∈ Sample.bench.names := by decide
  have hneg : (undampedArm.damping.isFinite && decide (0 ≤ undampedArm.damping)) = false := by
    decide +kernel
  rw [checked_up_to_damping hfound hbench, hneg]
  rfl

/-- A check is not enough. -/
theorem check_is_not_enough :
    ¬ ∀ (c : Config Float) (found : Findings Float) (b : Bench Float),
      checkConfig? c = .ok found → (∀ joint ∈ c.joints, joint ∈ b.names) →
        ((Station.fresh found.kind b : Station (Bench Float) BenchHandle Float).obey
          (.configure c)).1 = .ok () := by
  intro h
  obtain ⟨found, hfound⟩ := exists_checkConfig?_undampedArm
  have hok := h undampedArm found Sample.bench hfound (by decide)
  obtain ⟨-, hkind, -⟩ := checkConfig?_eq_ok_iff.mp hfound
  have hposition : found.kind = .position := by
    rw [Config.commandKind?_eq_ok_iff] at hkind
    exact (Option.some.inj hkind).symm
  rw [hposition] at hok
  have hrefused : ((Station.fresh .position Sample.bench : Station (Bench Float) BenchHandle Float).obey
      (.configure undampedArm)).1 ≠ .ok () := by decide +kernel
  exact hrefused hok

end ArmServo.CommandLine
