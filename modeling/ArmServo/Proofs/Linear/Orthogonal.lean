import Mathlib
import ArmServo.Linear.Orthogonal
import ArmServo.Proofs.Linear.Vec

/-!
# Principal directions span what they are taken from

Vectors are read as the quadratic form of the sum of their squares (`squares`). Turning pairs of them
leaves the form as it is. If the form exceeds a tolerance on everything that the vectors reach, then
the directions picked from them are independent and miss nothing: whatever is orthogonal to all
directions is orthogonal to all vectors.

Main statement: `spanned_principal`.
-/

namespace ArmServo.Vec

variable {n : ℕ}

/-! ## the form of a list of vectors -/

/-- The sum of the squares of the products with `u`. -/
noncomputable def squares (vs : List (Vec ℝ n)) (u : Vec ℝ n) : ℝ := (vs.map fun w => u.dot w ^ 2).sum

@[simp] theorem squares_nil (u : Vec ℝ n) : squares [] u = 0 := rfl

@[simp] theorem squares_cons (v : Vec ℝ n) (vs : List (Vec ℝ n)) (u : Vec ℝ n) :
    squares (v :: vs) u = u.dot v ^ 2 + squares vs u := rfl

theorem squares_nonneg (vs : List (Vec ℝ n)) (u : Vec ℝ n) : 0 ≤ squares vs u := by
  induction vs with
  | nil => exact le_rfl
  | cons v vs ih => exact add_nonneg (sq_nonneg _) ih

theorem squares_eq_zero_iff {vs : List (Vec ℝ n)} {u : Vec ℝ n} :
    squares vs u = 0 ↔ ∀ w ∈ vs, u.dot w = 0 := by
  induction vs with
  | nil => simp
  | cons v vs ih =>
    rw [squares_cons, List.forall_mem_cons, ← ih,
      add_eq_zero_iff_of_nonneg (sq_nonneg _) (squares_nonneg vs u), sq_eq_zero_iff]

/-! ## turning -/

theorem rotate_squares {c s : ℝ} (h : c ^ 2 + s ^ 2 = 1) (v w u : Vec ℝ n) :
    u.dot ((v.scale c).subScaled s w) ^ 2 + u.dot ((v.scale s).add (w.scale c)) ^ 2 =
      u.dot v ^ 2 + u.dot w ^ 2 := by
  simp only [dot_subScaled, dot_scale, dot_add]
  linear_combination (u.dot v ^ 2 + u.dot w ^ 2) * h

theorem cosine_sq_add_sine_sq (t : ℝ) : (1 / √(1 + t * t)) ^ 2 + (1 / √(1 + t * t) * t) ^ 2 = 1 := by
  have hpos : 0 < 1 + t * t := add_pos_of_pos_of_nonneg one_pos (mul_self_nonneg t)
  rw [mul_pow, div_pow, Real.sq_sqrt hpos.le]
  field_simp

theorem turn_squares (v w u : Vec ℝ n) :
    u.dot (turn v w).1 ^ 2 + u.dot (turn v w).2 ^ 2 = u.dot v ^ 2 + u.dot w ^ 2 := by
  unfold turn
  dsimp only
  split
  · rfl
  · exact rotate_squares (cosine_sq_add_sine_sq _) v w u

theorem turnEach_squares (v : Vec ℝ n) (ws : List (Vec ℝ n)) (u : Vec ℝ n) :
    u.dot (turnEach v ws).1 ^ 2 + squares (turnEach v ws).2 u = u.dot v ^ 2 + squares ws u := by
  induction ws generalizing v with
  | nil => rfl
  | cons w ws ih =>
    have h1 := ih (turn v w).1
    have h2 := turn_squares v w u
    rw [turnEach]
    simp only [squares_cons]
    linarith

theorem turnAll_squares (vs : List (Vec ℝ n)) (u : Vec ℝ n) :
    squares (turnAll vs) u = squares vs u := by
  induction vs with
  | nil => rfl
  | cons v vs ih =>
    have h := turnEach_squares v (turnAll vs) u
    rw [turnAll, squares_cons, squares_cons, ← ih]
    exact h

theorem orthogonalize_squares (rounds : ℕ) (vs : List (Vec ℝ n)) (u : Vec ℝ n) :
    squares (orthogonalize rounds vs) u = squares vs u := by
  induction rounds generalizing vs with
  | zero => rfl
  | succ rounds ih => rw [orthogonalize, ih, turnAll_squares]

/-! ## overlaps -/

/-- A symmetric form is bounded by the largest sum of absolute values of a row. -/
theorem sum_mul_mul_le {ι : Type} [Fintype ι] (a : ι → ℝ) {g : ι → ι → ℝ} (hg : ∀ i j, g i j = g j i)
    {t : ℝ} (h : ∀ i, ∑ j, |g i j| ≤ t) : ∑ i, ∑ j, a i * a j * g i j ≤ t * ∑ i, a i ^ 2 := by
  have hterm : ∀ i j, a i * a j * g i j ≤ a i ^ 2 * |g i j| / 2 + a j ^ 2 * |g j i| / 2 := by
    intro i j
    rw [hg j i]
    have h1 : a i * a j * g i j ≤ |a i * a j| * |g i j| := by
      rw [← abs_mul]
      exact le_abs_self _
    have h2 : |a i * a j| ≤ (a i ^ 2 + a j ^ 2) / 2 := by
      rw [abs_le]
      constructor <;> nlinarith [sq_nonneg (a i + a j), sq_nonneg (a i - a j)]
    nlinarith [abs_nonneg (g i j)]
  calc ∑ i, ∑ j, a i * a j * g i j
      ≤ ∑ i, ∑ j, (a i ^ 2 * |g i j| / 2 + a j ^ 2 * |g j i| / 2) :=
        Finset.sum_le_sum fun i _ => Finset.sum_le_sum fun j _ => hterm i j
    _ = ∑ i, ∑ j, a i ^ 2 * |g i j| / 2 + ∑ i, ∑ j, a j ^ 2 * |g j i| / 2 := by
        simp only [Finset.sum_add_distrib]
    _ = ∑ i, ∑ j, a i ^ 2 * |g i j| / 2 + ∑ i, ∑ j, a i ^ 2 * |g i j| / 2 := by
        rw [Finset.sum_comm (f := fun i j => a j ^ 2 * |g j i| / 2)]
    _ = ∑ i, a i ^ 2 * ∑ j, |g i j| := by
        rw [← Finset.sum_add_distrib]
        refine Finset.sum_congr rfl fun i _ => ?_
        rw [← Finset.sum_add_distrib, Finset.mul_sum]
        exact Finset.sum_congr rfl fun j _ => add_halves _
    _ ≤ ∑ i, a i ^ 2 * t := Finset.sum_le_sum fun i _ =>
        mul_le_mul_of_nonneg_left (h i) (sq_nonneg _)
    _ = t * ∑ i, a i ^ 2 := by rw [← Finset.sum_mul, mul_comm]

/-- The sum of the vectors, each times its product with `u`. -/
noncomputable def image (vs : List (Vec ℝ n)) (u : Vec ℝ n) : Vec ℝ n :=
  vs.foldr (fun w sum => (w.scale (u.dot w)).add sum) (zero n)

theorem dot_image (vs : List (Vec ℝ n)) (u x : Vec ℝ n) :
    x.dot (image vs u) = ∑ i : Fin vs.length, u.dot vs[i] * x.dot vs[i] := by
  refine Eq.trans ?_ (Fin.sum_univ_fun_getElem vs fun w => u.dot w * x.dot w).symm
  induction vs with
  | nil => exact dot_zero x
  | cons w vs ih =>
    show x.dot ((w.scale (u.dot w)).add (image vs u)) = _
    rw [dot_add, dot_scale, ih, List.map_cons, List.sum_cons]

theorem squares_eq_sum (vs : List (Vec ℝ n)) (u : Vec ℝ n) :
    squares vs u = ∑ i : Fin vs.length, u.dot vs[i] ^ 2 :=
  (Fin.sum_univ_fun_getElem vs fun w => u.dot w ^ 2).symm

theorem overlap_eq_sum (vs : List (Vec ℝ n)) (v : Vec ℝ n) :
    overlap vs v = ∑ i : Fin vs.length, |v.dot vs[i]| := by
  refine Eq.trans ?_ (Fin.sum_univ_fun_getElem vs fun w => |v.dot w|).symm
  induction vs with
  | nil => rfl
  | cons w vs ih =>
    show |v.dot w| + overlap vs v = _
    rw [ih, List.map_cons, List.sum_cons]

/-- **Small overlaps bound the form**, since they bound its largest eigenvalue. -/
theorem squares_le_of_overlap_le {vs : List (Vec ℝ n)} {t : ℝ} (ht : 0 ≤ t)
    (h : ∀ v ∈ vs, overlap vs v ≤ t) (u : Vec ℝ n) : squares vs u ≤ t * u.dot u := by
  have hself : u.dot (image vs u) = squares vs u := by
    rw [dot_image, squares_eq_sum]
    exact Finset.sum_congr rfl fun i _ => (sq _).symm
  have himage : (image vs u).dot (image vs u) ≤ t * squares vs u := by
    have hrow : ∀ i : Fin vs.length, ∑ j : Fin vs.length, |vs[i].dot vs[j]| ≤ t := by
      intro i
      rw [← overlap_eq_sum]
      exact h _ (List.getElem_mem _)
    have hbound := sum_mul_mul_le (fun i : Fin vs.length => u.dot vs[i])
      (fun i j => dot_comm vs[i] vs[j]) hrow
    rw [squares_eq_sum, dot_image]
    refine le_trans (le_of_eq ?_) hbound
    refine Finset.sum_congr rfl fun i _ => ?_
    rw [dot_comm (image vs u), dot_image, Finset.mul_sum]
    exact Finset.sum_congr rfl fun j _ => by ring
  have hcauchy := dot_mul_dot_le u (image vs u)
  rw [hself] at hcauchy
  rcases (squares_nonneg vs u).eq_or_lt with h0 | hpos
  · rw [← h0]
    exact mul_nonneg ht (dot_self_nonneg u)
  · refine le_of_mul_le_mul_right ?_ hpos
    calc squares vs u * squares vs u ≤ u.dot u * (image vs u).dot (image vs u) := hcauchy
      _ ≤ u.dot u * (t * squares vs u) := mul_le_mul_of_nonneg_left himage (dot_self_nonneg u)
      _ = t * u.dot u * squares vs u := by ring

/-! ## the space of a list of vectors -/

/-- The vector lies in the space of the given ones: what is orthogonal to those is orthogonal to it. -/
def Reaches (vs : List (Vec ℝ n)) (u : Vec ℝ n) : Prop :=
  ∀ z : Vec ℝ n, (∀ w ∈ vs, z.dot w = 0) → z.dot u = 0

/-- The form exceeds `t` times the square on the space of the vectors. -/
def Exceeds (vs : List (Vec ℝ n)) (t : ℝ) : Prop :=
  ∀ u, Reaches vs u → u ≠ zero n → t * u.dot u < squares vs u

theorem reaches_of_mem {vs : List (Vec ℝ n)} {v : Vec ℝ n} (hv : v ∈ vs) : Reaches vs v :=
  fun _ hz => hz v hv

theorem Exceeds.of_squares_eq {vs ws : List (Vec ℝ n)} {t : ℝ} (h : Exceeds vs t)
    (hs : ∀ u, squares ws u = squares vs u) : Exceeds ws t := by
  intro u hu hne
  rw [hs]
  refine h u (fun z hz => hu z ?_) hne
  rwa [← squares_eq_zero_iff, hs, squares_eq_zero_iff]

/-- The span of the entries of the vectors. -/
def space (vs : List (Vec ℝ n)) : Submodule ℝ (Fin n → ℝ) :=
  Submodule.span ℝ (entries '' {v | v ∈ vs})

theorem entries_mem_space {vs : List (Vec ℝ n)} {v : Vec ℝ n} (hv : v ∈ vs) :
    v.entries ∈ space vs :=
  Submodule.subset_span ⟨v, hv, rfl⟩

theorem eq_zero_of_entries {v : Vec ℝ n} (h : v.entries = 0) : v = zero n := by
  rw [← dot_self_eq_zero, dot_eq_dotProduct, h, dotProduct_zero]

/-! ## the longest vector -/

theorem foldl_longer_mem (p : Vec ℝ n) (vs : List (Vec ℝ n)) :
    vs.foldl longer p = p ∨ vs.foldl longer p ∈ vs := by
  induction vs generalizing p with
  | nil => exact .inl rfl
  | cons v vs ih =>
    rw [List.foldl_cons]
    rcases ih (longer p v) with h | h
    · rw [h]
      unfold longer
      split
      · exact .inr List.mem_cons_self
      · exact .inl rfl
    · exact .inr (List.mem_cons_of_mem v h)

theorem le_foldl_longer (p : Vec ℝ n) (vs : List (Vec ℝ n)) :
    p.dot p ≤ (vs.foldl longer p).dot (vs.foldl longer p) ∧
      ∀ v ∈ vs, v.dot v ≤ (vs.foldl longer p).dot (vs.foldl longer p) := by
  induction vs generalizing p with
  | nil => exact ⟨le_rfl, fun v hv => (nomatch hv)⟩
  | cons v vs ih =>
    obtain ⟨hlonger, hrest⟩ := ih (longer p v)
    have hboth : p.dot p ≤ (longer p v).dot (longer p v) ∧ v.dot v ≤ (longer p v).dot (longer p v) := by
      unfold longer
      split
      case isTrue h => exact ⟨h.le, le_rfl⟩
      case isFalse h => exact ⟨le_rfl, not_lt.mp h⟩
    refine ⟨hboth.1.trans hlonger, fun w hw => ?_⟩
    rcases List.mem_cons.mp hw with rfl | hw
    · exact hboth.2.trans hlonger
    · exact hrest w hw

/-- The longest of some vectors that are not all zero is one of them and not zero. -/
theorem longest_mem {vs : List (Vec ℝ n)} {v : Vec ℝ n} (hv : v ∈ vs) (hne : v ≠ zero n) :
    vs.foldl longer (zero n) ∈ vs ∧ vs.foldl longer (zero n) ≠ zero n := by
  have hpos : 0 < (vs.foldl longer (zero n)).dot (vs.foldl longer (zero n)) :=
    lt_of_lt_of_le (dot_self_pos hne) ((le_foldl_longer _ vs).2 v hv)
  have hp : vs.foldl longer (zero n) ≠ zero n := by
    intro h
    rw [h, dot_zero] at hpos
    exact lt_irrefl 0 hpos
  exact ⟨(foldl_longer_mem _ vs).resolve_left hp, hp⟩

/-! ## rejecting a direction -/

theorem dot_reject (p v u : Vec ℝ n) :
    u.dot (reject p v) = u.dot v - p.dot v / p.dot p * u.dot p := dot_subScaled u v p _

theorem dot_reject_self {p : Vec ℝ n} (hp : p ≠ zero n) (v : Vec ℝ n) : p.dot (reject p v) = 0 := by
  rw [dot_reject, div_mul_cancel₀ _ (dot_self_pos hp).ne', sub_self]

theorem reaches_of_reject {vs : List (Vec ℝ n)} {p u : Vec ℝ n} (hp : p ∈ vs)
    (hu : Reaches (vs.map (reject p)) u) : Reaches vs u := by
  intro z hz
  refine hu z fun w hw => ?_
  obtain ⟨v, hv, rfl⟩ := List.mem_map.mp hw
  rw [dot_reject, hz v hv, hz p hp, mul_zero, sub_zero]

/-- What the rejected vectors reach is orthogonal to the direction. -/
theorem dot_eq_zero_of_reject {vs : List (Vec ℝ n)} {p u : Vec ℝ n} (hp : p ≠ zero n)
    (hu : Reaches (vs.map (reject p)) u) : p.dot u = 0 := by
  refine hu p fun w hw => ?_
  obtain ⟨v, -, rfl⟩ := List.mem_map.mp hw
  exact dot_reject_self hp v

theorem Exceeds.reject {vs : List (Vec ℝ n)} {t : ℝ} (h : Exceeds vs t) {p : Vec ℝ n} (hp : p ∈ vs)
    (hne : p ≠ zero n) : Exceeds (vs.map (reject p)) t := by
  intro u hu hu0
  have hpu : u.dot p = 0 := by
    rw [dot_comm]
    exact dot_eq_zero_of_reject hne hu
  have hs : squares (vs.map (Vec.reject p)) u = squares vs u := by
    unfold squares
    rw [List.map_map]
    congr 1
    refine List.map_congr_left fun w _ => ?_
    show u.dot (Vec.reject p w) ^ 2 = u.dot w ^ 2
    rw [dot_reject, hpu, mul_zero, sub_zero]
  rw [hs]
  exact h u (reaches_of_reject hp hu) hu0

/-- Rejecting one of the vectors leaves a smaller space. -/
theorem finrank_space_reject {vs : List (Vec ℝ n)} {p : Vec ℝ n} (hp : p ∈ vs) (hne : p ≠ zero n) :
    Module.finrank ℝ (space (vs.map (reject p))) < Module.finrank ℝ (space vs) := by
  refine Submodule.finrank_lt_finrank_of_lt (lt_of_le_of_ne ?_ ?_)
  · refine Submodule.span_le.mpr ?_
    rintro x ⟨w, hw, rfl⟩
    obtain ⟨v, hv, rfl⟩ := List.mem_map.mp hw
    rw [SetLike.mem_coe, Vec.reject, entries_subScaled]
    exact Submodule.sub_mem _ (entries_mem_space hv)
      (Submodule.smul_mem _ _ (entries_mem_space hp))
  · intro heq
    have horth : ∀ x ∈ space (vs.map (reject p)), p.entries ⬝ᵥ x = 0 := by
      intro x hx
      refine Submodule.span_induction ?_ ?_ ?_ ?_ hx
      · rintro x ⟨w, hw, rfl⟩
        obtain ⟨v, -, rfl⟩ := List.mem_map.mp hw
        rw [← dot_eq_dotProduct, dot_reject_self hne]
      · exact dotProduct_zero _
      · intro x y _ _ hx hy
        rw [dotProduct_add, hx, hy, add_zero]
      · intro s x _ hx
        rw [dotProduct_smul, hx, smul_zero]
    have hpp := horth p.entries (heq ▸ entries_mem_space hp)
    rw [← dot_eq_dotProduct] at hpp
    exact (dot_self_pos hne).ne' hpp

/-! ## picking directions -/

/-- The directions are independent vectors of the space of the given ones, and nothing of that space
is orthogonal to all of them. -/
structure Spanned (vs ds : List (Vec ℝ n)) : Prop where
  reaches : ∀ d ∈ ds, Reaches vs d
  complete : ∀ u : Vec ℝ n, (∀ d ∈ ds, u.dot d = 0) → ∀ w ∈ vs, u.dot w = 0
  independent : ∀ z, combine ds z = zero n → z = zero ds.length

/-- Vectors that no direction tells apart are not told apart by the given vectors. -/
theorem Spanned.dot_eq {vs ds : List (Vec ℝ n)} (h : Spanned vs ds) {u w : Vec ℝ n}
    (huw : ∀ d ∈ ds, d.dot u = d.dot w) : ∀ v ∈ vs, v.dot u = v.dot w := by
  intro v hv
  have hdiff : (u.subScaled 1 w).dot v = 0 := by
    refine h.complete _ (fun d hd => ?_) v hv
    rw [dot_comm, dot_subScaled, huw d hd, one_mul, sub_self]
  rw [dot_comm, dot_subScaled, one_mul] at hdiff
  exact sub_eq_zero.mp hdiff

theorem Spanned.reaches_combine {vs ds : List (Vec ℝ n)} (h : Spanned vs ds)
    (z : Vec ℝ ds.length) : Reaches vs (combine ds z) :=
  fun _ hu => dot_combine_eq_zero (fun d hd => h.reaches d hd _ hu) z

theorem spanned_nil {vs : List (Vec ℝ n)} (h : ∀ w ∈ vs, w = zero n) : Spanned vs [] where
  reaches _ hd := nomatch hd
  complete u _ w hw := by rw [h w hw, dot_zero]
  independent z _ := by cases z; rfl

/-- One more direction, and those of what is left of the vectors without it. -/
theorem Spanned.cons {vs ds : List (Vec ℝ n)} {p : Vec ℝ n} (hp : p ∈ vs) (hne : p ≠ zero n)
    (h : Spanned (vs.map (reject p)) ds) : Spanned vs (p.divide √(p.dot p) :: ds) where
  reaches := by
    rintro d hd z hz
    rcases List.mem_cons.mp hd with rfl | hd
    · rw [dot_divide, hz p hp, zero_div]
    · exact reaches_of_reject hp (h.reaches d hd) z hz
  complete := by
    intro u hu w hw
    have hroot : √(p.dot p) ≠ 0 := (Real.sqrt_pos.mpr (dot_self_pos hne)).ne'
    have hup : u.dot p = 0 := by
      have h1 := hu _ List.mem_cons_self
      rw [dot_divide, div_eq_zero_iff] at h1
      exact h1.resolve_right hroot
    have hrej := h.complete u (fun d hd => hu d (List.mem_cons_of_mem _ hd)) _
      (List.mem_map_of_mem hw)
    rwa [dot_reject, hup, mul_zero, sub_zero] at hrej
  independent := by
    intro z hz
    cases z with
    | cons a z =>
      rw [combine_cons] at hz
      have hroot : √(p.dot p) ≠ 0 := (Real.sqrt_pos.mpr (dot_self_pos hne)).ne'
      have horth : p.dot (combine ds z) = 0 :=
        dot_combine_eq_zero (fun d hd => dot_eq_zero_of_reject hne (h.reaches d hd)) z
      have ha : a = 0 := by
        have h1 := congrArg p.dot hz
        rw [dot_add, dot_scale, dot_divide, horth, dot_zero, add_zero] at h1
        have hpp := (dot_self_pos hne).ne'
        exact (mul_eq_zero.mp h1).resolve_right (div_ne_zero hpp hroot)
      subst ha
      have hrest : combine ds z = zero n := by
        refine ext_dot fun u => ?_
        have h1 := congrArg u.dot hz
        rwa [dot_add, dot_scale, zero_mul, zero_add] at h1
      rw [h.independent z hrest]
      rfl

/-- Vectors whose overlaps are within the tolerance that their form exceeds are zero. -/
theorem eq_zero_of_overlap_le {vs : List (Vec ℝ n)} {t : ℝ} (ht : 0 ≤ t) (h : Exceeds vs t)
    (hover : ∀ v ∈ vs, overlap vs v ≤ t) : ∀ w ∈ vs, w = zero n := by
  intro w hw
  by_contra hne
  exact absurd (squares_le_of_overlap_le ht hover w) (not_le.mpr (h w (reaches_of_mem hw) hne))

theorem overlap_zero (vs : List (Vec ℝ n)) : overlap vs (zero n) = 0 := by
  rw [overlap_eq_sum]
  simp

/-- **The directions span the space of the vectors** if there may be as many as its dimension. The
induction is on their number: every direction that is picked leaves a smaller space. -/
theorem spanned_directions {t : ℝ} (ht : 0 ≤ t) {rounds : ℕ} {vs : List (Vec ℝ n)}
    (hdim : Module.finrank ℝ (space vs) ≤ rounds) (h : Exceeds vs t) :
    Spanned vs (directions t rounds vs) := by
  induction rounds generalizing vs with
  | zero =>
    have hbot : space vs = ⊥ := Submodule.finrank_eq_zero.mp (Nat.le_zero.mp hdim)
    refine spanned_nil fun w hw => eq_zero_of_entries ?_
    have hmem := entries_mem_space hw
    rwa [hbot, Submodule.mem_bot] at hmem
  | succ rounds ih =>
    rw [directions]
    by_cases hstop : (vs.all fun v => decide (overlap vs v ≤ t)) = true
    · rw [if_pos hstop]
      rw [List.all_eq_true] at hstop
      exact spanned_nil (eq_zero_of_overlap_le ht h fun v hv => of_decide_eq_true (hstop v hv))
    · rw [if_neg hstop]
      obtain ⟨v, hv, hover⟩ : ∃ v ∈ vs, ¬ overlap vs v ≤ t := by
        by_contra hall
        push Not at hall
        exact hstop (List.all_eq_true.mpr fun v hv => decide_eq_true (hall v hv))
      have hv0 : v ≠ zero n := by
        rintro rfl
        exact hover ((overlap_zero vs).trans_le ht)
      obtain ⟨hp, hne⟩ := longest_mem hv hv0
      have hsmaller := finrank_space_reject hp hne
      exact (ih (by omega) (h.reject hp hne)).cons hp hne

/-- **Principal directions span the space of the vectors** whose form exceeds the tolerance there. -/
theorem spanned_principal {t : ℝ} (ht : 0 ≤ t) {vs : List (Vec ℝ n)} (h : Exceeds vs t) :
    Spanned vs (principal t vs) := by
  have hs := orthogonalize_squares turnings vs
  have hdim : Module.finrank ℝ (space (orthogonalize turnings vs)) ≤ n :=
    (Submodule.finrank_le _).trans_eq (Module.finrank_fin_fun ℝ)
  have hspan := spanned_directions ht hdim (h.of_squares_eq hs)
  have hnull : ∀ z : Vec ℝ n, (∀ w ∈ orthogonalize turnings vs, z.dot w = 0) ↔
      ∀ w ∈ vs, z.dot w = 0 := by
    intro z
    rw [← squares_eq_zero_iff, hs, squares_eq_zero_iff]
  exact ⟨fun d hd z hz => hspan.reaches d hd z ((hnull z).mpr hz),
    fun u hu => (hnull u).mp (hspan.complete u hu), hspan.independent⟩

end ArmServo.Vec
