import ArmServo.Proofs.Chain.Faults
import ArmServo.Proofs.Chain.Velocity

/-!
# What a chain stands for

Which descriptions become chains, which fault of the others is reported, and what all chains have in
common that have been accepted or cut out.

Main statement: `only_faultless_descriptions_make_chains`.
-/

namespace ArmServo.Chain

/-! ## axes -/

theorem axis_of_obtained {c : Chain ℝ} (hc : c.Obtained) :
    ∀ s ∈ c.segments, s.isActuated = true → s.axis.norm = 1 := by
  induction hc with
  | ofSegments h =>
    intro t ht hactuated
    obtain ⟨s, -, hs⟩ := mem_of_ofSegments? h ht
    show Scalar.sqrt (t.axis.dot t.axis) = 1
    rw [axis_of_accepted hs hactuated, Scalar.sqrt_real, Real.sqrt_one]
  | between _ h ih => exact fun s hs => ih s (mem_of_between? h s hs)

/-! ## the main statement -/

/-- **A description makes a chain exactly if it is faultless**; of any other the first entry with a
fault is reported, with the first of its faults, and of joints that do not move nothing is examined.
A chain keeps its shape in whatever arithmetic, also when runs are cut out of it; in exact arithmetic
its moving joints have axes of length one. -/
theorem only_faultless_descriptions_make_chains {α : Type} [Scalar α] :
    (∀ (base : String) (segments : List (Segment Float)),
      ((∃ c, ofSegments? base segments = .ok c) ↔ segments ≠ [] ∧ Faultless base segments) ∧
      (∀ e, ofSegments? base segments = .error e ↔ segments = [] ∧ e = .emptyChain ∨
        ∃ before s after, segments = before ++ s :: after ∧ Faultless base before ∧
          s.Fault (base :: before.map Segment.link) (Segment.movingJoints before) e) ∧
      ∀ segments', List.Forall₂ Segment.LooksLike segments segments' →
        ∀ e, ofSegments? base segments = .error e ↔ ofSegments? base segments' = .error e) ∧
    (∀ c : Chain α, c.Obtained → c.Shape) ∧
    ∀ c : Chain ℝ, c.Obtained → ∀ s ∈ c.actuated, s.axis.norm = 1 := by
  refine ⟨fun base segments => ⟨exists_ofSegments?_iff, fun e => ofSegments?_eq_error_iff, ?_⟩,
    fun c hc => hc.shape, ?_⟩
  · exact fun segments' h e => ofSegments?_eq_error_iff_of_looksLike h
  · intro c hc s hs
    obtain ⟨hmem, hactuated⟩ := List.mem_filter.mp hs
    exact axis_of_obtained hc s hmem hactuated

/-- The link and the slide alone: their run is cut out without a test, and has its shape. -/
theorem run_of_slideOnLink_has_shape : ∃ c d, ofSegments? "floor" slideOnLink = .ok c ∧
    c.between? "post" "tool" = .ok d ∧ d.Shape ∧ ∀ s ∈ d.actuated, s.axis.norm = 1 := by
  obtain ⟨c, hc, -⟩ := ofSegments?_slideOnLink
  obtain ⟨d, hd⟩ : ∃ d, c.between? "post" "tool" = .ok d := by
    refine ⟨_, between?_eq_ok_iff.mpr ⟨1, 3, ?_, ?_, by decide, rfl⟩⟩ <;>
    · rw [frameIndex?, frames_slideOnLink hc]
      rfl
  have hobtained : d.Obtained := .between (.ofSegments hc) hd
  obtain ⟨-, hshape, haxes⟩ := only_faultless_descriptions_make_chains (α := ℝ)
  exact ⟨c, d, hc, hd, hshape d hobtained, haxes d hobtained⟩

end ArmServo.Chain
