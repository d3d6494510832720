import ArmServo.Proofs.Motion.Joints
import ArmServo.Proofs.Pid.Runs
import ArmServo.Proofs.Scalar.Zero

/-!
# Nothing comes of nothing

What the stages of a period make of zero, where zero stays zero: loops that remember nothing put out
zero and still remember nothing, a system of equations with a right side of zero is solved by zero
on both ways, and a joint within its limits that is given no velocity stays where it is and reports
none.

Main statements: `Spatial.update?_zero`, `TaskSpace.solve_zero`, `Solver.Steps.at_rest`.
-/

namespace ArmServo

variable {α : Type} [Scalar α] [ZeroLaws α]

/-! ## the loops -/

namespace Pid

theorem Loop.integrated?_zero {s : Loop α} (hs : s.integral = 0) (dt : α) :
    s.integrated? 0 dt = some 0 := by
  have hbound : 0 ≤ Scalar.abs s.gains.iClamp := ZeroLaws.abs_nonneg _
  unfold integrated?
  rw [hs, ZeroLaws.zero_mul, ZeroLaws.add_zero]
  exact ZeroLaws.clampBetween?_eq_self (ZeroLaws.neg_nonpos hbound) hbound

theorem Gains.output_zero (g : Gains α) (dt : α) : g.output 0 0 0 dt = 0 := by
  unfold output
  rw [ZeroLaws.zero_sub_zero, ZeroLaws.zero_div, ZeroLaws.mul_zero, ZeroLaws.mul_zero,
    ZeroLaws.mul_zero, ZeroLaws.add_zero, ZeroLaws.add_zero]

/-- Loops that remember nothing put out zero for an error of zero, and still remember nothing. -/
theorem Spatial.update?_zero [TellsTime α] {s : Spatial α} (hs : s.reset = s) {period : Period}
    (hp : period.isZero = false) : s.update? .zero period = some (.zero, s) := by
  refine (update?_eq_some_iff hp).mpr fun k => ?_
  have hk : s.loop k = (s.loop k).reset := by rw [← loop_reset, hs]
  have hintegral : (s.loop k).integral = 0 := by rw [hk]; rfl
  have hlast : (s.loop k).lastError = 0 := by rw [hk]; rfl
  rw [Axes.get_zero, hintegral, hlast]
  exact ⟨Loop.integrated?_zero hintegral _, rfl, rfl, (Gains.output_zero _ _).symm⟩

end Pid

/-! ## linear systems -/

namespace ZeroLaws

open Vec

variable {n : Nat}

theorem dot_zero (v : Vec α n) : v.dot (zero n) = 0 := by
  induction v with
  | nil => rfl
  | cons a v ih => rw [zero_succ, cons_dot_cons, ih, ZeroLaws.mul_zero, ZeroLaws.add_zero]

theorem zero_subScaled (v : Vec α n) : (zero n).subScaled 0 v = zero n := by
  induction v with
  | nil => rfl
  | cons a v ih =>
    rw [zero_succ, cons_subScaled_cons, ih, ZeroLaws.zero_mul, ZeroLaws.zero_sub_zero]

theorem scale_zero (v : Vec α n) : v.scale 0 = zero n := by
  induction v with
  | nil => rfl
  | cons a v ih => rw [scale_cons, ih, ZeroLaws.zero_mul, zero_succ]

theorem zero_add_zero : (zero n : Vec α n).add (zero n) = zero n := by
  induction n with
  | zero => rfl
  | succ n ih => rw [zero_succ, cons_add_cons, ih, ZeroLaws.add_zero]

theorem coordinates_zero (vs : List (Vec α n)) : coordinates vs (zero n) = zero vs.length := by
  induction vs with
  | nil => rfl
  | cons v vs ih =>
    rw [coordinates_cons, dot_zero, ih]
    rfl

theorem combine_zero (vs : List (Vec α n)) : combine vs (zero vs.length) = zero n := by
  induction vs with
  | nil => rfl
  | cons v vs ih =>
    show combine (v :: vs) (cons 0 (zero vs.length)) = zero n
    rw [combine_cons, scale_zero, ih, zero_add_zero]

end ZeroLaws

namespace SymMatrix

variable {n : Nat}

/-- **A right side of zero has no other solution by elimination than zero.** -/
theorem eq_zero_of_solve? {a : SymMatrix α n} {x : Vec α n} (h : a.solve? (.zero n) = some x) :
    x = .zero n := by
  induction n with
  | zero =>
    cases x
    rfl
  | succ n ih =>
    cases a with
    | cons d b a =>
      rw [Vec.zero_succ, solve?] at h
      split at h
      case isFalse => cases h
      case isTrue =>
        dsimp only at h
        rw [ZeroLaws.zero_div, ZeroLaws.zero_subScaled] at h
        split at h
        case h_2 => cases h
        case h_1 y hy =>
          cases ih hy
          cases h
          rw [ZeroLaws.dot_zero, ZeroLaws.zero_sub_zero, ZeroLaws.zero_div, Vec.zero_succ]

theorem eq_zero_of_solveWithin? {a : SymMatrix α n} {vs : List (Vec α n)} {x : Vec α n}
    (h : a.solveWithin? vs (.zero n) = some x) : x = .zero n := by
  unfold solveWithin? at h
  rw [ZeroLaws.coordinates_zero] at h
  obtain ⟨w, hw, rfl⟩ := Option.map_eq_some_iff.mp h
  rw [eq_zero_of_solve? hw, ZeroLaws.combine_zero]

end SymMatrix

/-- **A velocity of zero is solved for by zero**, be the matrix positive definite or not. -/
theorem TaskSpace.solve_zero (columns : List (Axes α)) (damping : α) :
    solve columns damping .zero = .zero := by
  unfold solve
  dsimp only
  rw [show Vec.ofAxes (Axes.zero : Axes α) = .zero 6 from rfl]
  cases hy : (matrix columns damping).solve? (.zero 6) with
  | some y =>
    rw [SymMatrix.eq_zero_of_solve? hy]
    rfl
  | none =>
    dsimp only
    cases hw : (matrix columns damping).solveWithin? (reach columns) (.zero 6) with
    | none => rfl
    | some y =>
      rw [SymMatrix.eq_zero_of_solveWithin? hw]
      rfl

/-! ## the joints -/

theorem Axes.dot_zero (v : Axes α) : v.dot .zero = 0 := by
  simp only [dot, zero, uniform, ofKinds, zipWith, toList, List.foldl_cons, List.foldl_nil,
    ZeroLaws.mul_zero, ZeroLaws.add_zero]

namespace Solver

theorem moveJoint?_zero {l : Limits α} {q : α} (hq : l.contains q = true) (dt : α) :
    moveJoint? l dt q 0 = some (q, 0) := by
  have hclamp : l.clamp? q = some q := by
    cases l with
    | free => rfl
    | range lower upper =>
      simp only [Limits.contains, Bool.and_eq_true, decide_eq_true_eq] at hq
      exact ZeroLaws.clampBetween?_eq_self hq.1 hq.2
  refine moveJoint?_eq_some.mpr ?_
  rw [ZeroLaws.zero_mul, ZeroLaws.add_zero, if_pos (ZeroLaws.beq_self q)]
  exact ⟨hclamp, rfl⟩

theorem moveJoints?_zero {ls : List (Limits α)} {qs : List α}
    (h : List.Forall₂ (fun l q => l.contains q = true) ls qs) (dt : α) :
    moveJoints? dt ls qs (List.replicate qs.length 0) = some ⟨qs, List.replicate qs.length 0⟩ := by
  induction h with
  | nil => rfl
  | cons hq _ ih =>
    rw [List.length_cons, List.replicate_succ, moveJoints?, moveJoint?_zero hq, ih]

/-- **A step towards no velocity**: it succeeds, and every joint rests where it is. -/
theorem Steps.at_rest {s t : Solver α} {period : Period} {r : Except (Failure α) Unit}
    (h : s.Steps period .zero TaskSpace.solve r t) (hs : s.Shaped) (hp : period.isZero = false)
    (hq : List.Forall₂ (fun l q => l.contains q = true) s.limits s.motion.positions) :
    r = .ok () ∧
      t.motion = ⟨s.motion.positions, List.replicate s.motion.positions.length 0⟩ := by
  have hmoved {columns : List (Axes α)}
      (hj : s.chain.jacobian? s.motion.positions s.jacobian = .ok columns) :
      s.moved? columns period .zero TaskSpace.solve =
        some ⟨s.motion.positions, List.replicate s.motion.positions.length 0⟩ := by
    have hzero : columns.map (·.dot (TaskSpace.solve columns s.damping .zero)) =
        List.replicate s.motion.positions.length 0 := by
      rw [TaskSpace.solve_zero, hs.positions, ← Chain.length_of_jacobian? hj]
      simp only [Axes.dot_zero, List.map_const']
    rw [moved?, hzero, moveJoints?_zero hq]
  cases h with
  | noTime hp' =>
    rw [hp] at hp'
    cases hp'
  | misfit _ hj =>
    obtain ⟨columns, hok⟩ := hs.jacobian?
    rw [hok] at hj
    cases hj
  | stuck _ hj hm =>
    rw [hmoved hj] at hm
    cases hm
  | moved _ hj hm =>
    rw [hmoved hj] at hm
    cases hm
    exact ⟨rfl, rfl⟩

end Solver

end ArmServo
