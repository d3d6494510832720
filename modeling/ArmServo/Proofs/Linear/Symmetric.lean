import Mathlib
import ArmServo.Linear.Symmetric
import ArmServo.Proofs.Linear.Vec

/-!
# Elimination solves positive definite systems

A symmetric matrix is read as its bilinear form `u · A v`. Elimination succeeds exactly for positive
definite matrices, because what remains after a pivot is positive definite exactly if the whole is
(`posDef_cons_iff`), and what it returns solves the system. A system within a space is such a system
for the coordinates of the solution.

Main statements: `isSome_solve?_iff`, `mulVec_of_solve?`, `exists_solveWithin?`.
-/

namespace ArmServo.SymMatrix

variable {n : ℕ}

/-! ## bilinear forms -/

theorem dot_mulVec_comm (a : SymMatrix ℝ n) (v w : Vec ℝ n) :
    v.dot (a.mulVec w) = w.dot (a.mulVec v) := by
  induction a with
  | nil => cases v; cases w; rfl
  | cons d b a ih =>
    cases v with
    | cons x v =>
      cases w with
      | cons y w =>
        simp only [mulVec_cons, Vec.cons_dot_cons, Vec.dot_add, Vec.dot_scale, ih v w,
          Vec.dot_comm v b, Vec.dot_comm w b]
        ring

@[simp] theorem dot_zero_mulVec (v w : Vec ℝ n) : v.dot ((zero n).mulVec w) = 0 := by
  induction n with
  | zero => cases v; cases w; rfl
  | succ n ih =>
    cases v with
    | cons x v =>
      cases w with
      | cons y w =>
        have h0 : (zero (n + 1) : SymMatrix ℝ (n + 1)) = cons 0 (.zero n) (zero n) := rfl
        simp only [h0, mulVec_cons, Vec.cons_dot_cons, Vec.dot_add, Vec.dot_scale, Vec.zero_dot,
          Vec.dot_zero, ih]
        ring

@[simp] theorem dot_addOuter_mulVec (a : SymMatrix ℝ n) (c v w : Vec ℝ n) :
    v.dot ((a.addOuter c).mulVec w) = v.dot (a.mulVec w) + v.dot c * c.dot w := by
  induction a with
  | nil => cases c; cases v; cases w; simp [addOuter, mulVec]
  | cons d b a ih =>
    cases c with
    | cons x c =>
      cases v with
      | cons y v =>
        cases w with
        | cons z w =>
          simp only [addOuter_cons, mulVec_cons, Vec.cons_dot_cons, Vec.zipWith_add_mul,
            Vec.dot_add, Vec.add_dot, Vec.dot_scale, Vec.scale_dot, ih]
          ring

@[simp] theorem dot_subOuter_mulVec (a : SymMatrix ℝ n) (c v w : Vec ℝ n) :
    v.dot ((a.subOuter c).mulVec w) = v.dot (a.mulVec w) - v.dot c * c.dot w := by
  induction a with
  | nil => cases c; cases v; cases w; simp [subOuter, mulVec]
  | cons d b a ih =>
    cases c with
    | cons x c =>
      cases v with
      | cons y v =>
        cases w with
        | cons z w =>
          simp only [subOuter_cons, mulVec_cons, Vec.cons_dot_cons, Vec.dot_add, Vec.dot_scale,
            Vec.dot_subScaled, Vec.subScaled_dot, ih]
          ring

@[simp] theorem dot_addScalar_mulVec (a : SymMatrix ℝ n) (s : ℝ) (v w : Vec ℝ n) :
    v.dot ((a.addScalar s).mulVec w) = v.dot (a.mulVec w) + s * v.dot w := by
  induction a with
  | nil => cases v; cases w; simp [addScalar, mulVec]
  | cons d b a ih =>
    cases v with
    | cons x v =>
      cases w with
      | cons y w =>
        simp only [addScalar_cons, mulVec_cons, Vec.cons_dot_cons, Vec.dot_add, Vec.dot_scale, ih]
        ring

/-! ## pivots -/

/-- The quadratic form is positive away from zero. -/
def PosDef (a : SymMatrix ℝ n) : Prop := ∀ v : Vec ℝ n, v ≠ .zero n → 0 < v.dot (a.mulVec v)

/-- The quadratic form is a square and the form of what remains after the pivot. -/
theorem quadratic_cons {d : ℝ} (hd : 0 < d) (b : Vec ℝ n) (a : SymMatrix ℝ n) (x : ℝ)
    (w : Vec ℝ n) :
    (Vec.cons x w).dot ((cons d b a).mulVec (.cons x w)) =
      (√d * x + (b.divide √d).dot w) ^ 2 + w.dot ((a.subOuter (b.divide √d)).mulVec w) := by
  have hl : √d ≠ 0 := (Real.sqrt_pos.mpr hd).ne'
  have hsq : √d * √d = d := Real.mul_self_sqrt hd.le
  have hb : b.dot w = √d * (b.divide √d).dot w := by
    rw [Vec.divide_dot, mul_div_cancel₀ _ hl]
  simp only [mulVec_cons, Vec.cons_dot_cons, Vec.dot_add, Vec.dot_scale, dot_subOuter_mulVec,
    Vec.dot_comm w b, Vec.dot_comm w (b.divide √d)]
  linear_combination -x ^ 2 * hsq + 2 * x * hb

theorem posDef_cons_iff (d : ℝ) (b : Vec ℝ n) (a : SymMatrix ℝ n) :
    (cons d b a).PosDef ↔ 0 < d ∧ (a.subOuter (b.divide √d)).PosDef := by
  constructor
  · intro h
    have hd : 0 < d := by
      have h1 := h (.cons 1 (.zero n)) (by simp)
      simpa [mulVec_cons] using h1
    refine ⟨hd, fun w hw => ?_⟩
    have hl : √d ≠ 0 := (Real.sqrt_pos.mpr hd).ne'
    -- the first entry is chosen so that the square vanishes
    have hx := h (.cons (-((b.divide √d).dot w / √d)) w) (by simp [hw])
    rw [quadratic_cons hd] at hx
    have hzero : √d * -((b.divide √d).dot w / √d) + (b.divide √d).dot w = 0 := by
      field_simp
      ring
    rwa [hzero, zero_pow two_ne_zero, zero_add] at hx
  · rintro ⟨hd, h⟩ v hv
    cases v with
    | cons x w =>
      rw [quadratic_cons hd]
      by_cases hw : w = .zero n
      · subst hw
        have hx : x ≠ 0 := by
          rintro rfl
          exact hv rfl
        have hl := Real.sqrt_pos.mpr hd
        simp only [Vec.dot_zero, Vec.zero_dot, add_zero]
        positivity
      · have hpos := h w hw
        positivity

/-! ## elimination -/

theorem solve?_cons (d : ℝ) (b : Vec ℝ n) (a : SymMatrix ℝ n) (y : ℝ) (ys : Vec ℝ n) :
    (cons d b a).solve? (.cons y ys) = if 0 < d then
        ((a.subOuter (b.divide √d)).solve? (ys.subScaled (y / √d) (b.divide √d))).map
          fun x => .cons ((y / √d - (b.divide √d).dot x) / √d) x
      else none := by
  rw [solve?]
  split
  · simp only [Scalar.sqrt_real]
    cases (a.subOuter (b.divide √d)).solve? (ys.subScaled (y / √d) (b.divide √d)) <;> rfl
  · rfl

/-- **Elimination succeeds exactly for positive definite matrices.** -/
theorem isSome_solve?_iff (a : SymMatrix ℝ n) (y : Vec ℝ n) :
    (a.solve? y).isSome = true ↔ a.PosDef := by
  induction n with
  | zero =>
    cases a
    cases y
    refine ⟨fun _ v hv => ?_, fun _ => rfl⟩
    cases v
    exact absurd rfl hv
  | succ n ih =>
    cases a with
    | cons d b a =>
      cases y with
      | cons y ys =>
        rw [posDef_cons_iff, solve?_cons]
        by_cases hd : 0 < d
        · rw [if_pos hd, Option.isSome_map, ih]
          exact ⟨fun h => ⟨hd, h⟩, And.right⟩
        · rw [if_neg hd]
          exact ⟨fun h => (nomatch h), fun h => absurd h.1 hd⟩

/-- **What elimination returns solves the system.** -/
theorem mulVec_of_solve? {a : SymMatrix ℝ n} {x y : Vec ℝ n} (h : a.solve? y = some x) :
    a.mulVec x = y := by
  induction n with
  | zero =>
    cases a
    cases x
    cases y
    rfl
  | succ n ih =>
    cases a with
    | cons d b a =>
      cases y with
      | cons y ys =>
        rw [solve?_cons] at h
        by_cases hd : 0 < d
        · rw [if_pos hd] at h
          obtain ⟨x, hx, rfl⟩ := Option.map_eq_some_iff.mp h
          have hl : √d ≠ 0 := (Real.sqrt_pos.mpr hd).ne'
          have hsq : √d * √d = d := Real.mul_self_sqrt hd.le
          have hb : ∀ w : Vec ℝ n, b.dot w = √d * (b.divide √d).dot w := by
            intro w
            rw [Vec.divide_dot, mul_div_cancel₀ _ hl]
          have hhead : √d * ((y / √d - (b.divide √d).dot x) / √d) = y / √d - (b.divide √d).dot x :=
            mul_div_cancel₀ _ hl
          rw [mulVec_cons]
          congr 1
          · have hy : √d * (y / √d) = y := mul_div_cancel₀ _ hl
            linear_combination hb x - ((y / √d - (b.divide √d).dot x) / √d) * hsq + √d * hhead + hy
          · refine Vec.ext_dot fun u => ?_
            have hu := congrArg u.dot (ih hx)
            rw [dot_subOuter_mulVec, Vec.dot_subScaled] at hu
            rw [Vec.dot_add, Vec.dot_scale, Vec.dot_comm u b, hb u,
              Vec.dot_comm (b.divide √d) u]
            linear_combination hu + u.dot (b.divide √d) * hhead
        · rw [if_neg hd] at h
          cases h

/-! ## linearity -/

theorem mulVec_combination (a : SymMatrix ℝ n) (x : ℝ) (v w : Vec ℝ n) :
    a.mulVec ((v.scale x).add w) = ((a.mulVec v).scale x).add (a.mulVec w) := by
  refine Vec.ext_dot fun u => ?_
  rw [dot_mulVec_comm, Vec.add_dot, Vec.scale_dot, Vec.dot_add, Vec.dot_scale,
    dot_mulVec_comm a u v, dot_mulVec_comm a u w]

theorem PosDef.mulVec_injective {a : SymMatrix ℝ n} (h : a.PosDef) :
    Function.Injective a.mulVec := by
  intro v w hvw
  have hform : ((v.scale (-1)).add w).dot (a.mulVec ((v.scale (-1)).add w)) = 0 := by
    rw [mulVec_combination, hvw, Vec.dot_add, Vec.dot_scale]
    ring
  have hzero : (v.scale (-1)).add w = .zero n := by
    by_contra hne
    exact (h _ hne).ne' hform
  refine Vec.ext_dot fun u => ?_
  have hu := congrArg u.dot hzero
  rw [Vec.dot_add, Vec.dot_scale, Vec.dot_zero] at hu
  linarith

/-! ## systems within a space -/

theorem mulVec_compress (a : SymMatrix ℝ n) (vs : List (Vec ℝ n)) (z : Vec ℝ vs.length) :
    (a.compress vs).mulVec z = Vec.coordinates vs (a.mulVec (Vec.combine vs z)) := by
  induction vs with
  | nil => cases z; rfl
  | cons v vs ih =>
    cases z with
    | cons x z =>
      rw [Vec.combine_cons, mulVec_combination, Vec.coordinates_cons, Vec.coordinates_combination,
        ← ih]
      show Vec.cons (v.dot (a.mulVec v) * x + (Vec.coordinates vs (a.mulVec v)).dot z) _ = _
      congr 1
      rw [Vec.dot_add, Vec.dot_scale, dot_mulVec_comm a v (Vec.combine vs z), Vec.combine_dot,
        Vec.dot_comm z, mul_comm]

theorem posDef_compress {a : SymMatrix ℝ n} {vs : List (Vec ℝ n)}
    (h : ∀ z : Vec ℝ vs.length, z ≠ .zero _ →
      0 < (Vec.combine vs z).dot (a.mulVec (Vec.combine vs z))) : (a.compress vs).PosDef := by
  intro z hz
  rw [mulVec_compress, ← Vec.combine_dot]
  exact h z hz

/-- **A system within a space has a solution there** if the form is positive on the space: a
combination whose product with the matrix cannot be told from the right side within the space. -/
theorem exists_solveWithin? {a : SymMatrix ℝ n} {vs : List (Vec ℝ n)}
    (h : (a.compress vs).PosDef) (y : Vec ℝ n) :
    ∃ x, a.solveWithin? vs y = some x ∧ ∀ v ∈ vs, v.dot (a.mulVec x) = v.dot y := by
  obtain ⟨z, hz⟩ := Option.isSome_iff_exists.mp
    ((isSome_solve?_iff _ (Vec.coordinates vs y)).mpr h)
  refine ⟨Vec.combine vs z, by rw [solveWithin?, hz]; rfl, ?_⟩
  rw [← Vec.coordinates_eq_iff, ← mulVec_compress]
  exact mulVec_of_solve? hz

end ArmServo.SymMatrix
