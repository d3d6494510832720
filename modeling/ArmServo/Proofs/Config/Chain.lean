import ArmServo.Config.Basic
import ArmServo.Proofs.Chain.Acceptance

/-!
# The chain of a configuration

The chain that a configuration describes is cut out of an accepted description; its moving joints are
those that the configuration lists, each once, and their limits are valid.
-/

namespace ArmServo.Config

variable {α : Type} [Scalar α]

/-- **Where the chain of a configuration comes from.** -/
theorem chain?_eq_ok {c : Config α} {chain : Chain α} (h : c.chain? = .ok chain) :
    ∃ full, c.description? = .ok full ∧ full.between? c.baseFrame c.tipFrame = .ok chain ∧
      chain.jointNames = c.joints := by
  unfold chain? at h
  obtain ⟨-, -, h⟩ := bind_eq_ok.mp h
  cases hd : c.description? >>= (·.between? c.baseFrame c.tipFrame) with
  | error e =>
    rw [hd] at h
    cases h
  | ok found =>
    rw [hd] at h
    dsimp only at h
    obtain ⟨full, hfull, hfound⟩ := bind_eq_ok.mp hd
    by_cases hj : found.jointNames = c.joints
    · rw [if_pos hj] at h
      cases h
      exact ⟨full, hfull, hfound, hj⟩
    · rw [if_neg hj] at h
      cases h

theorem isValid_of_chain? {c : Config α} {chain : Chain α} (h : c.chain? = .ok chain) :
    ∀ l ∈ chain.limits, l.isValid = true := by
  obtain ⟨full, hfull, hchain, -⟩ := chain?_eq_ok h
  intro l hl
  obtain ⟨t, ht, rfl⟩ := List.mem_map.mp hl
  obtain ⟨ht, hact⟩ := List.mem_filter.mp ht
  obtain ⟨s, -, hs⟩ := Chain.mem_of_ofSegments? hfull (Chain.mem_of_between? hchain t ht)
  exact Chain.isValid_of_accepted hs hact

theorem nodup_jointNames_of_chain? {c : Config α} {chain : Chain α} (h : c.chain? = .ok chain) :
    chain.jointNames.Nodup := by
  obtain ⟨full, hfull, hchain, -⟩ := chain?_eq_ok h
  exact Chain.nodup_jointNames_of_between? hchain (Chain.nodup_jointNames_of_ofSegments? hfull)

end ArmServo.Config
