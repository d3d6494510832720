import Mathlib
import ArmServo.Scalar.Binary64

/-!
# The order of doubles

Doubles that are numbers are totally ordered by `≤`; a double that is not a number compares with
nothing, not even with itself. What a clamp needs of this order is stated here once.
-/

namespace ArmServo.Binary64

open Float.Model (UnpackedFloat)

/-! ## comparison of unpacked doubles -/

theorem isSome_compare (a b : UnpackedFloat) :
    (a.compare b).isSome = (!a.isNaN && !b.isNaN) := by
  rcases a with s | _ | s | ⟨s, m, e, _⟩ <;> rcases b with t | _ | t | ⟨t, n, f, _⟩ <;>
    (try cases s) <;> (try cases t) <;> rfl

theorem swap_compare_finite (e f : Int) (m n : Nat) :
    ((compare e f).then (compare m n)).swap = (compare f e).then (compare n m) := by
  have he : compare f e = (compare e f).swap := Std.OrientedCmp.eq_swap
  have hm : compare n m = (compare m n).swap := Std.OrientedCmp.eq_swap
  rw [Ordering.swap_then, he, hm]

theorem swap_compare (a b : UnpackedFloat) : (a.compare b).map Ordering.swap = b.compare a := by
  rcases a with s | _ | s | ⟨s, m, e, _⟩ <;> rcases b with t | _ | t | ⟨t, n, f, _⟩ <;>
    (try cases s) <;> (try cases t) <;>
      first | rfl | simp [UnpackedFloat.compare, swap_compare_finite]

theorem compare_neg (a b : UnpackedFloat) : a.neg.compare b.neg = b.compare a := by
  rcases a with s | _ | s | ⟨s, m, e, _⟩ <;> rcases b with t | _ | t | ⟨t, n, f, _⟩ <;>
    (try cases s) <;> (try cases t) <;>
      first
      | rfl
      | exact congrArg some (swap_compare_finite _ _ _ _)
      | exact congrArg some (swap_compare_finite _ _ _ _).symm

/-! ## doubles -/

theorem le_iff {x y : Float} :
    x ≤ y ↔ (x.toModel.unpack.compare y.toModel.unpack).any Ordering.isLE = true :=
  decide_eq_true_iff

theorem lt_iff {x y : Float} : x < y ↔ x.toModel.unpack.compare y.toModel.unpack = some .lt :=
  decide_eq_true_iff.trans beq_iff_eq

theorem isSome_compare_toModel (x y : Float) :
    (x.toModel.unpack.compare y.toModel.unpack).isSome = (!x.isNaN && !y.isNaN) :=
  isSome_compare _ _

theorem isNaN_of_le {x y : Float} (h : x ≤ y) : x.isNaN = false ∧ y.isNaN = false := by
  have hs := Option.isSome_of_any (le_iff.mp h)
  rw [isSome_compare_toModel] at hs
  simpa using hs

theorem exists_compare {x y : Float} (hx : x.isNaN = false) (hy : y.isNaN = false) :
    ∃ o, x.toModel.unpack.compare y.toModel.unpack = some o := by
  refine Option.isSome_iff_exists.mp ?_
  rw [isSome_compare_toModel, hx, hy]
  rfl

theorem le_of_not_lt {x y : Float} (hx : x.isNaN = false) (hy : y.isNaN = false) (h : ¬ x < y) :
    y ≤ x := by
  obtain ⟨o, ho⟩ := exists_compare hx hy
  rw [le_iff, ← swap_compare, ho]
  cases o with
  | lt => exact absurd (lt_iff.mpr ho) h
  | eq => rfl
  | gt => rfl

theorem not_lt_of_le {x y : Float} (h : x ≤ y) : ¬ y < x := by
  intro hlt
  rw [le_iff, ← swap_compare, lt_iff.mp hlt] at h
  exact Bool.false_ne_true h

theorem compare_self {x : Float} (hx : x.isNaN = false) :
    x.toModel.unpack.compare x.toModel.unpack = some .eq := by
  obtain ⟨o, ho⟩ := exists_compare hx hx
  have hs := swap_compare x.toModel.unpack x.toModel.unpack
  rw [ho] at hs ⊢
  cases o with
  | eq => rfl
  | lt | gt => cases hs

theorem le_self {x : Float} (hx : x.isNaN = false) : x ≤ x := by
  rw [le_iff, compare_self hx]
  rfl

theorem beq_iff {x y : Float} :
    (x == y) = true ↔ x.toModel.unpack.compare y.toModel.unpack = some .eq := by
  show (x.toModel.unpack.compare y.toModel.unpack == some .eq) = true ↔ _
  exact beq_iff_eq

theorem beq_self (x : Float) : (x == x) = !x.isNaN := by
  rw [Bool.eq_iff_iff, beq_iff, Bool.not_eq_true']
  refine ⟨fun h => ?_, compare_self⟩
  exact (isNaN_of_le (le_iff.mpr (by rw [h]; rfl))).1

theorem beq_eq_false_of_lt {x y : Float} (h : x < y) : (x == y) = false := by
  rw [← Bool.not_eq_true, beq_iff, lt_iff.mp h]
  exact nofun

theorem beq_eq_false_of_gt {x y : Float} (h : y < x) : (x == y) = false := by
  rw [← Bool.not_eq_true, beq_iff, ← swap_compare, lt_iff.mp h]
  exact nofun

/-! ## infinity -/

def infinity : Float := 1.0 / 0.0

theorem infinity_unpack : infinity.toModel.unpack = .infinity .positive := rfl

theorem neg_infinity_unpack : (-infinity).toModel.unpack = .infinity .negative := rfl

theorem not_lt_neg_infinity (x : Float) : ¬ x < -infinity := by
  rw [lt_iff, neg_infinity_unpack]
  cases x.toModel.unpack with
  | infinity s => cases s <;> exact fun h => nomatch h
  | notANumber | zero | finite => exact fun h => nomatch h

theorem not_infinity_lt (x : Float) : ¬ infinity < x := by
  rw [lt_iff, infinity_unpack]
  cases x.toModel.unpack with
  | infinity s => cases s <;> exact fun h => nomatch h
  | notANumber | zero | finite => exact fun h => nomatch h

theorem le_infinity {x : Float} (hx : x.isNaN = false) : x ≤ infinity :=
  le_of_not_lt rfl hx (not_infinity_lt x)

end ArmServo.Binary64
