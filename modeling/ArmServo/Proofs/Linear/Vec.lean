import Mathlib
import ArmServo.Linear.Vec
import ArmServo.Proofs.Scalar.Real

/-!
# Products of real vectors

The product of vectors is linear on both sides and determines them, so that an equation of vectors is
proved by the products of its sides with every vector (`ext_dot`).
-/

namespace ArmServo.Vec

variable {n : ℕ}

/-! ## linearity -/

theorem dot_comm (v w : Vec ℝ n) : v.dot w = w.dot v := by
  induction v with
  | nil => cases w; rfl
  | cons a v ih =>
    cases w with
    | cons b w => rw [cons_dot_cons, cons_dot_cons, ih, mul_comm]

@[simp] theorem dot_zero (v : Vec ℝ n) : v.dot (zero n) = 0 := by
  induction v with
  | nil => rfl
  | cons a v ih => rw [zero_succ, cons_dot_cons, ih, mul_zero, add_zero]

@[simp] theorem dot_add (u v w : Vec ℝ n) : u.dot (v.add w) = u.dot v + u.dot w := by
  induction u with
  | nil => cases v; cases w; exact (add_zero 0).symm
  | cons a u ih =>
    cases v with
    | cons b v =>
      cases w with
      | cons c w =>
        simp only [cons_add_cons, cons_dot_cons, ih]
        ring

@[simp] theorem dot_scale (u v : Vec ℝ n) (s : ℝ) : u.dot (v.scale s) = s * u.dot v := by
  induction u with
  | nil => cases v; exact (mul_zero s).symm
  | cons a u ih =>
    cases v with
    | cons b v =>
      simp only [scale_cons, cons_dot_cons, ih]
      ring

@[simp] theorem dot_divide (u v : Vec ℝ n) (s : ℝ) : u.dot (v.divide s) = u.dot v / s := by
  induction u with
  | nil => cases v; exact (zero_div s).symm
  | cons a u ih =>
    cases v with
    | cons b v =>
      simp only [divide_cons, cons_dot_cons, ih]
      ring

@[simp] theorem dot_subScaled (u v w : Vec ℝ n) (s : ℝ) :
    u.dot (v.subScaled s w) = u.dot v - s * u.dot w := by
  induction u with
  | nil =>
    cases v
    cases w
    show (0 : ℝ) = 0 - s * 0
    ring
  | cons a u ih =>
    cases v with
    | cons b v =>
      cases w with
      | cons c w =>
        simp only [cons_subScaled_cons, cons_dot_cons, ih]
        ring

theorem zipWith_add_mul (v w : Vec ℝ n) (s : ℝ) :
    zipWith (fun a b => a + s * b) v w = v.add (w.scale s) := by
  induction v with
  | nil => cases w; rfl
  | cons a v ih =>
    cases w with
    | cons b w => rw [scale_cons, cons_add_cons, ← ih w, zipWith]

@[simp] theorem zero_dot (v : Vec ℝ n) : (zero n).dot v = 0 := by
  rw [dot_comm, dot_zero]

@[simp] theorem add_dot (u v w : Vec ℝ n) : (u.add v).dot w = u.dot w + v.dot w := by
  rw [dot_comm, dot_add, dot_comm w u, dot_comm w v]

@[simp] theorem scale_dot (v w : Vec ℝ n) (s : ℝ) : (v.scale s).dot w = s * v.dot w := by
  rw [dot_comm, dot_scale, dot_comm w v]

@[simp] theorem divide_dot (v w : Vec ℝ n) (s : ℝ) : (v.divide s).dot w = v.dot w / s := by
  rw [dot_comm, dot_divide, dot_comm w v]

@[simp] theorem subScaled_dot (u v w : Vec ℝ n) (s : ℝ) :
    (u.subScaled s v).dot w = u.dot w - s * v.dot w := by
  rw [dot_comm, dot_subScaled, dot_comm w u, dot_comm w v]

/-! ## lengths -/

theorem dot_self_nonneg (v : Vec ℝ n) : 0 ≤ v.dot v := by
  induction v with
  | nil => exact le_rfl
  | cons a v ih => exact add_nonneg (mul_self_nonneg a) ih

theorem dot_self_eq_zero {v : Vec ℝ n} : v.dot v = 0 ↔ v = zero n := by
  constructor
  · intro h
    induction v with
    | nil => rfl
    | cons a v ih =>
      rw [cons_dot_cons] at h
      have ha : a * a = 0 := by linarith [mul_self_nonneg a, dot_self_nonneg v]
      have hv : v.dot v = 0 := by linarith [mul_self_nonneg a, dot_self_nonneg v]
      rw [zero_succ, ih hv, mul_self_eq_zero.mp ha]
  · rintro rfl
    exact dot_zero _

theorem dot_self_pos {v : Vec ℝ n} (h : v ≠ zero n) : 0 < v.dot v :=
  lt_of_le_of_ne (dot_self_nonneg v) fun h0 => h (dot_self_eq_zero.mp h0.symm)

theorem ext_dot {v w : Vec ℝ n} (h : ∀ u : Vec ℝ n, u.dot v = u.dot w) : v = w := by
  induction v with
  | nil => cases w; rfl
  | cons a v ih =>
    cases w with
    | cons b w =>
      have hhead := h (cons 1 (zero _))
      simp only [cons_dot_cons, zero_dot, one_mul, add_zero] at hhead
      have htail : ∀ u : Vec ℝ _, u.dot v = u.dot w := by
        intro u
        have hu := h (cons 0 u)
        simpa only [cons_dot_cons, zero_mul, zero_add] using hu
      rw [hhead, ih htail]

theorem dot_mul_dot_le (v w : Vec ℝ n) : v.dot w * v.dot w ≤ v.dot v * w.dot w := by
  have h := dot_self_nonneg ((v.scale (w.dot w)).subScaled (v.dot w) w)
  simp only [subScaled_dot, dot_subScaled, scale_dot, dot_scale, dot_comm w v] at h
  by_cases hw : w = zero n
  · simp [hw]
  · have hpos := dot_self_pos hw
    have h' : 0 ≤ w.dot w * (v.dot v * w.dot w - v.dot w * v.dot w) := by linarith
    exact sub_nonneg.mp (nonneg_of_mul_nonneg_right h' hpos)

/-! ## combinations -/

/-- A combination multiplies like its weights with the coordinates. -/
theorem combine_dot (vs : List (Vec ℝ n)) (z : Vec ℝ vs.length) (u : Vec ℝ n) :
    (combine vs z).dot u = z.dot (coordinates vs u) := by
  induction vs with
  | nil => cases z; exact zero_dot u
  | cons v vs ih =>
    cases z with
    | cons a z =>
      rw [combine_cons, coordinates_cons, add_dot, scale_dot, ih, cons_dot_cons]

theorem dot_combine_eq_zero {vs : List (Vec ℝ n)} {u : Vec ℝ n} (h : ∀ v ∈ vs, u.dot v = 0)
    (z : Vec ℝ vs.length) : u.dot (combine vs z) = 0 := by
  induction vs with
  | nil => cases z; exact dot_zero u
  | cons v vs ih =>
    cases z with
    | cons a z =>
      have hv := h v List.mem_cons_self
      have hvs := ih (fun w hw => h w (List.mem_cons_of_mem v hw)) z
      rw [combine_cons, dot_add, dot_scale, hv, hvs, mul_zero, add_zero]

theorem coordinates_combination (vs : List (Vec ℝ n)) (x : ℝ) (u w : Vec ℝ n) :
    coordinates vs ((u.scale x).add w) = ((coordinates vs u).scale x).add (coordinates vs w) := by
  induction vs with
  | nil => rfl
  | cons v vs ih => simp [ih]

theorem coordinates_eq_iff {vs : List (Vec ℝ n)} {u w : Vec ℝ n} :
    coordinates vs u = coordinates vs w ↔ ∀ v ∈ vs, v.dot u = v.dot w := by
  induction vs with
  | nil => simp [coordinates]
  | cons v vs ih => simp [coordinates, ih]

/-! ## entries -/

/-- The entries by their places. -/
def entries : {n : ℕ} → Vec ℝ n → Fin n → ℝ
  | _, nil => Fin.elim0
  | _, cons a v => Fin.cons a (entries v)

theorem dot_eq_dotProduct (v w : Vec ℝ n) : v.dot w = v.entries ⬝ᵥ w.entries := by
  induction v with
  | nil => cases w; simp [dotProduct]
  | cons a v ih =>
    cases w with
    | cons b w =>
      rw [cons_dot_cons, ih, dotProduct, dotProduct, Fin.sum_univ_succ]
      rfl

theorem entries_surjective (f : Fin n → ℝ) : ∃ v : Vec ℝ n, v.entries = f := by
  induction n with
  | zero => exact ⟨nil, Subsingleton.elim _ _⟩
  | succ n ih =>
    obtain ⟨v, hv⟩ := ih (Fin.tail f)
    refine ⟨cons (f 0) v, ?_⟩
    rw [entries, hv, Fin.cons_self_tail]

theorem entries_subScaled (v w : Vec ℝ n) (s : ℝ) :
    (v.subScaled s w).entries = v.entries - s • w.entries := by
  induction v with
  | nil => exact Subsingleton.elim _ _
  | cons a v ih =>
    cases w with
    | cons b w =>
      rw [cons_subScaled_cons]
      funext i
      refine Fin.cases rfl (fun i => ?_) i
      exact congrFun (ih w) i

end ArmServo.Vec
