import Mathlib
import ArmServo.Proofs.Scalar.Order

/-!
# Finite doubles

A sum or a product is finite only if its operands are, and what lies between finite doubles is
finite.
-/

namespace ArmServo.Binary64

open Float.Model (UnpackedFloat Format)

/-! ## operations -/

theorem isFinite_pack {f : UnpackedFloat} (hf : f.isFinite = false) :
    (Float.Model.pack f).unpack.isFinite = false := by
  cases f with
  | notANumber => rfl
  | infinity s => cases s <;> rfl
  | zero | finite => cases hf

theorem isFinite_add_left {a : UnpackedFloat} (ha : a.isFinite = false) (b : UnpackedFloat) :
    (UnpackedFloat.add Format.binary64 a b).isFinite = false := by
  cases a with
  | notANumber => rfl
  | infinity s =>
    cases b with
    | infinity t => cases s <;> cases t <;> rfl
    | _ => rfl
  | zero | finite => cases ha

theorem isFinite_add_right (a : UnpackedFloat) {b : UnpackedFloat} (hb : b.isFinite = false) :
    (UnpackedFloat.add Format.binary64 a b).isFinite = false := by
  cases b with
  | notANumber => cases a <;> rfl
  | infinity s =>
    cases a with
    | infinity t => cases s <;> cases t <;> rfl
    | _ => rfl
  | zero | finite => cases hb

theorem isFinite_mul_left {a : UnpackedFloat} (ha : a.isFinite = false) (b : UnpackedFloat) :
    (UnpackedFloat.mul Format.binary64 a b).isFinite = false := by
  cases a with
  | notANumber => rfl
  | infinity s => cases b <;> rfl
  | zero | finite => cases ha

theorem isFinite_mul_right (a : UnpackedFloat) {b : UnpackedFloat} (hb : b.isFinite = false) :
    (UnpackedFloat.mul Format.binary64 a b).isFinite = false := by
  cases b with
  | notANumber => cases a <;> rfl
  | infinity s => cases a <;> rfl
  | zero | finite => cases hb

theorem isFinite_sub_left {a : UnpackedFloat} (ha : a.isFinite = false) (b : UnpackedFloat) :
    (UnpackedFloat.sub Format.binary64 a b).isFinite = false := by
  cases a with
  | notANumber => rfl
  | infinity s =>
    cases b with
    | infinity t => cases s <;> cases t <;> rfl
    | _ => rfl
  | zero | finite => cases ha

theorem isFinite_div_left {a : UnpackedFloat} (ha : a.isFinite = false) (b : UnpackedFloat) :
    (UnpackedFloat.div Format.binary64 a b).isFinite = false := by
  cases a with
  | notANumber => rfl
  | infinity s => cases b <;> rfl
  | zero | finite => cases ha

/-- A sum is finite only if both summands are. -/
theorem isFinite_of_add {x y : Float} (h : (x + y).isFinite = true) :
    x.isFinite = true ∧ y.isFinite = true := by
  rw [← Bool.not_eq_false] at h
  refine ⟨?_, ?_⟩ <;> rw [← Bool.not_eq_false] <;> intro hfinite <;> apply h
  · exact isFinite_pack (isFinite_add_left hfinite _)
  · exact isFinite_pack (isFinite_add_right _ hfinite)

theorem isFinite_of_mul {x y : Float} (h : (x * y).isFinite = true) :
    x.isFinite = true ∧ y.isFinite = true := by
  rw [← Bool.not_eq_false] at h
  refine ⟨?_, ?_⟩ <;> rw [← Bool.not_eq_false] <;> intro hfinite <;> apply h
  · exact isFinite_pack (isFinite_mul_left hfinite _)
  · exact isFinite_pack (isFinite_mul_right _ hfinite)

theorem isFinite_of_sub_div {x y z : Float} (h : ((x - y) / z).isFinite = true) :
    x.isFinite = true := by
  rw [← Bool.not_eq_false] at h ⊢
  exact fun hfinite =>
    h (isFinite_pack (isFinite_div_left (isFinite_pack (isFinite_sub_left hfinite _)) _))

/-! ## order -/

theorem isFinite_of_ne {x : Float} (hx : x.isNaN = false)
    (hlower : x.toModel.unpack ≠ .infinity .negative)
    (hupper : x.toModel.unpack ≠ .infinity .positive) : x.isFinite = true := by
  change x.toModel.unpack.isNaN = false at hx
  show x.toModel.unpack.isFinite = true
  cases hu : x.toModel.unpack with
  | notANumber =>
    rw [hu] at hx
    cases hx
  | infinity s =>
    cases s with
    | positive => exact absurd hu hupper
    | negative => exact absurd hu hlower
  | zero | finite => rfl

theorem isNaN_of_isFinite {x : Float} (hx : x.isFinite = true) : x.isNaN = false := by
  change x.toModel.unpack.isFinite = true at hx
  show x.toModel.unpack.isNaN = false
  cases hu : x.toModel.unpack with
  | notANumber =>
    rw [hu] at hx
    cases hx
  | infinity | zero | finite => rfl

theorem not_infinity_le {x : Float} (hx : x.isFinite = true) : ¬ infinity ≤ x := by
  change x.toModel.unpack.isFinite = true at hx
  rw [le_iff, infinity_unpack]
  cases hu : x.toModel.unpack with
  | notANumber | infinity =>
    rw [hu] at hx
    cases hx
  | zero | finite => exact Bool.false_ne_true

theorem not_le_neg_infinity {x : Float} (hx : x.isFinite = true) : ¬ x ≤ -infinity := by
  change x.toModel.unpack.isFinite = true at hx
  rw [le_iff, neg_infinity_unpack]
  cases hu : x.toModel.unpack with
  | notANumber | infinity =>
    rw [hu] at hx
    cases hx
  | zero | finite => exact Bool.false_ne_true

theorem isFinite_of_le_of_le {x y z : Float} (hxy : x ≤ y) (hyz : y ≤ z) (hx : x.isFinite = true)
    (hz : z.isFinite = true) : y.isFinite = true := by
  refine isFinite_of_ne (isNaN_of_le hxy).2 (fun h => ?_) (fun h => ?_)
  · rw [le_iff, h, ← neg_infinity_unpack, ← le_iff] at hxy
    exact not_le_neg_infinity hx hxy
  · rw [le_iff, h, ← infinity_unpack, ← le_iff] at hyz
    exact not_infinity_le hz hyz

end ArmServo.Binary64
