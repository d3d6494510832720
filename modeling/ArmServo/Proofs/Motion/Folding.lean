import ArmServo.Proofs.Chain.Folding
import ArmServo.Proofs.Motion.Mounting

/-!
# Fixed segments do not count

A solver knows its chain by its Jacobians, and a step never changes the chain. So solvers for chains
that act alike go the same steps, from whatever limits, damping, buffer and motion they have; and
chains act alike with a fixed segment folded away or called otherwise.

Main statement: `fixed_segments_fold_away`.
-/

namespace ArmServo

namespace Solver

section AnyArithmetic

variable {α : Type} [Scalar α]

/-- The solver with another chain. -/
def onChain (s : Solver α) (c : Chain α) : Solver α := { s with chain := c }

/-- All that a step does with one chain it does with another that has the same Jacobians. -/
theorem Steps.onChain {s t : Solver α} {c : Chain α}
    (hc : ∀ q out, c.jacobian? q out = s.chain.jacobian? q out) {period : Period}
    {velocity : Axes α} {solve : TaskSpace.Method α} {r : Except (Failure α) Unit}
    (h : s.Steps period velocity solve r t) :
    (s.onChain c).Steps period velocity solve r (t.onChain c) := by
  cases h with
  | noTime hp => exact .noTime hp
  | misfit hp hj => exact .misfit hp ((hc _ _).trans hj)
  | stuck hp hj hm => exact .stuck (s := s.onChain c) hp ((hc _ _).trans hj) hm
  | moved hp hj hm => exact .moved (s := s.onChain c) hp ((hc _ _).trans hj) hm

/-- Solvers for the first chain go the same way as those for the second. -/
structure MovesLike (c' c : Chain α) : Prop where
  /-- They begin alike, or are refused alike. -/
  ofChain? : ∀ damping, ofChain? c' damping = (ofChain? c damping).map (·.onChain c')
  /-- A step has the same answer and leaves the same solver, chain apart, also if it fails. -/
  step : ∀ s : Solver α, s.chain = c → ∀ period velocity solve,
    (step period velocity solve).run (s.onChain c') =
      (((step period velocity solve).run s).1, ((step period velocity solve).run s).2.onChain c')
  /-- The motions of a run are the same, up to the same failure if there is one. -/
  motions? : ∀ s : Solver α, s.chain = c → ∀ steps, (s.onChain c').motions? steps = s.motions? steps

theorem step_run_onChain {s : Solver α} {c : Chain α}
    (hc : ∀ q out, c.jacobian? q out = s.chain.jacobian? q out) (period : Period)
    (velocity : Axes α) (solve : TaskSpace.Method α) :
    (step period velocity solve).run (s.onChain c) =
      (((step period velocity solve).run s).1, ((step period velocity solve).run s).2.onChain c) :=
  ((step_steps s period velocity solve).onChain hc).run_eq

/-- The induction is on the steps; none of them changes the chain. -/
theorem motions?_onChain {s : Solver α} {c : Chain α}
    (hc : ∀ q out, c.jacobian? q out = s.chain.jacobian? q out) (steps : List (Period × Axes α)) :
    (s.onChain c).motions? steps = s.motions? steps := by
  induction steps generalizing s with
  | nil => rfl
  | cons x rest ih =>
    have hchain := (step_steps s x.1 x.2 TaskSpace.solve).kept.1
    rw [Solver.motions?, Solver.motions?, step?, step?, step_run_onChain hc]
    generalize (Solver.step x.1 x.2 TaskSpace.solve).run s = result at hchain ⊢
    obtain ⟨r, t⟩ := result
    cases r with
    | error f => rfl
    | ok _ =>
      have ht : ∀ q out, c.jacobian? q out = t.chain.jacobian? q out := by
        rw [hchain]
        exact hc
      show ((t.onChain c).motions? rest >>= _) = (t.motions? rest >>= _)
      rw [ih ht]
      rfl

end AnyArithmetic

end Solver

namespace Chain

/-- **Chains that act alike are moved alike.** -/
theorem ActsLike.movesLike {α : Type} [Scalar α] {c c' : Chain α} {hidden : List String}
    (h : c'.ActsLike c hidden) : Solver.MovesLike c' c := by
  constructor
  case ofChain? =>
    intro damping
    unfold Solver.ofChain? jacobianBuffer
    rw [h.limits, h.dof]
    split <;> rfl
  case step =>
    rintro s rfl period velocity solve
    exact Solver.step_run_onChain h.jacobian? period velocity solve
  case motions? =>
    rintro s rfl steps
    exact Solver.motions?_onChain h.jacobian? steps

/-! ## the main statement -/

/-- **Fixed segments fold away.** In exact arithmetic, if a fixed segment of an accepted description is
left out and the segment behind it is placed by both, the description is still accepted, and the new
chain acts and moves like the old one, but for the frame that is left out. It is made like the old one,
so that more can be folded; and every chain is a description of itself, runs included. Limits are real
numbers in all this, so that no range is infinite on one side. In any arithmetic, joint names, axes and
limits of fixed segments do not matter, neither for what is accepted or cut out nor for how it acts and
moves. -/
theorem fixed_segments_fold_away :
    (∀ (base : String) (before after : List (Segment ℝ)) (f s : Segment ℝ) (c : Chain ℝ),
      f.kind = .fixed → (∀ u ∈ before ++ f :: s :: after, u.origin.rotation.IsUnit) →
      ofSegments? base (before ++ f :: s :: after) = .ok c →
      ∃ c', ofSegments? base (before ++ { s with origin := f.origin * s.origin } :: after) = .ok c' ∧
        c'.Made ∧ c'.ActsLike c [f.link] ∧ Solver.MovesLike c' c) ∧
    (∀ c : Chain ℝ, c.Made → ofSegments? c.base c.segments = .ok c) ∧
    ∀ {α : Type} [Scalar α],
      (∀ (base : String) (segments segments' : List (Segment α)),
        List.Forall₂ Segment.Relabels segments segments' →
        Alike Relabels (ofSegments? base segments) (ofSegments? base segments')) ∧
      ∀ c c' : Chain α, c.Relabels c' →
        (∀ base tip, Alike Relabels (c.between? base tip) (c'.between? base tip)) ∧
        c'.ActsLike c [] ∧ Solver.MovesLike c' c := by
  refine ⟨?fold, fun c hc => hc.ofSegments?_segments, ?relabel⟩
  case fold =>
    intro base before after f s c hkind hunit h
    have hfixed := Segment.isActuated_of_kind hkind
    have hmade : c.Made := .ofSegments hunit h
    have hunit' : ∀ u ∈ before ++ s.placedBy f :: after, u.origin.rotation.IsUnit := by
      simp only [List.forall_mem_append, List.forall_mem_cons] at hunit ⊢
      obtain ⟨hbefore, hf, hs, hafter⟩ := hunit
      exact ⟨hbefore, hf.mul hs, hafter⟩
    obtain ⟨before', s', after', rfl, h'⟩ := ofSegments?_fold hfixed h
    have hlike := actsLike_fold hfixed hmade.isRigid hmade.obtained.wellFormed.frames
    exact ⟨_, h', .ofSegments hunit' h', hlike, hlike.movesLike⟩
  case relabel =>
    intro α _
    refine ⟨fun base segments segments' h => alike_ofSegments? h base, fun c c' h => ?_⟩
    exact ⟨h.between?, h.actsLike, h.actsLike.movesLike⟩

/-- The link of `slideOnLink`, placed without its bracket. -/
noncomputable def raisedLink : Segment ℝ :=
  ⟨"turn", "link", .revolute, ⟨0, 0, Scalar.two⟩, ⟨.one, ⟨0, 0, 1⟩⟩ * .one, .free⟩

/-- A plate that is bolted down. -/
def plate : Segment Float := ⟨"bolt", "plate", .fixed, .unitZ, .one, .free⟩

/-- The slide on its link without the bracket; and the plate, with no axis and limits that are no
numbers. -/
theorem slideOnLink_without_bracket :
    (∃ c c' : Chain ℝ, ofSegments? "floor" slideOnLink = .ok c ∧
      ofSegments? "floor" (raisedLink :: slideOnLink.drop 2) = .ok c' ∧
      c'.frames = ["floor", "link", "tool"] ∧ c'.dof = 2 ∧
      (∃ p, c'.pose? [1, 1] "tool" = .ok p ∧ c.pose? [1, 1] "tool" = .ok p) ∧
      ∃ s, Solver.ofChain? c 1 = .ok s ∧ Solver.ofChain? c' 1 = .ok (s.onChain c') ∧
        (s.onChain c').motions? [(⟨1000000⟩, TaskSpace.push)] =
          s.motions? [(⟨1000000⟩, TaskSpace.push)]) ∧
    ∃ c c' : Chain Float, ofSegments? "floor" [plate] = .ok c ∧
      ofSegments? "floor" [{ plate with axis := .zero, limits := .range (0.0 / 0.0) (0.0 / 0.0) }] = .ok c' ∧
      c'.tipPose? [] = c.tipPose? [] := by
  obtain ⟨hfold, -, hrelabel⟩ := fixed_segments_fold_away
  constructor
  · obtain ⟨c, hc, hdof⟩ := ofSegments?_slideOnLink
    obtain ⟨c', hc', -, hlike, hmoves⟩ :=
      hfold "floor" [] (slideOnLink.drop 2) _ _ c rfl isUnit_slideOnLink hc
    have hframes : c'.frames = ["floor", "link", "tool"] := by
      rw [hlike.frames, frames_slideOnLink hc]
      rfl
    obtain ⟨p, hp⟩ := hlike.poses [1, 1] hdof.symm "tool" (by simp [hframes])
    have hp' : c.pose? [1, 1] "tool" = .ok p := by
      rw [← hlike.pose? _ _ (by decide), hp]
    have hs := Solver.ofChain?_of_pos c one_pos
    have hs' := hmoves.ofChain? 1
    rw [hs] at hs'
    exact ⟨c, c', hc, hc', hframes, hlike.dof.trans hdof, ⟨p, hp, hp'⟩, _, hs, hs',
      hmoves.motions? _ rfl _⟩
  · obtain ⟨haccepted, hchains⟩ := hrelabel (α := Float)
    have hbolt : plate.Relabels { plate with axis := .zero, limits := .range (0.0 / 0.0) (0.0 / 0.0) } :=
      .inr ⟨rfl, _, _, _, rfl⟩
    have hc : ofSegments? "floor" [plate] = .ok ⟨"floor", [plate]⟩ := rfl
    obtain ⟨c', hc', hrelabels⟩ :=
      (haccepted "floor" [plate] _ (.cons hbolt .nil)).exists_ok hc
    obtain ⟨-, hlike, -⟩ := hchains _ c' hrelabels
    exact ⟨_, c', hc, hc', hlike.tipPose? []⟩

end Chain

end ArmServo
