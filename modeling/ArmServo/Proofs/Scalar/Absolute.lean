import Mathlib
import ArmServo.Proofs.Decimal.Bits
import ArmServo.Proofs.Scalar.Order

/-!
# Absolute values of doubles

A minus turns the order of doubles round, and the absolute value of a number is the number or its
negative. So the bounds plus and minus `|c|` are in order exactly if `c` is a number, and what lies
between them is not above `|c|` in absolute value.

Main statements: `neg_abs_le_abs_iff`, `abs_le_of_between`.
-/

namespace ArmServo.Binary64

open Float.Model (UnpackedFloat Format)
open Float.Model.UnpackedFloat

/-! ## negatives -/

theorem unpack_neg {x : Float} (hx : x.isNaN = false) :
    (-x).toModel.unpack = x.toModel.unpack.neg := by
  obtain ⟨s, e, f, h, rfl⟩ := exists_ofParts hx
  rw [neg_ofParts h, unpack_ofParts h, unpack_ofParts h, neg_unpack_word]

theorem neg_le_neg_of_le {x y : Float} (h : x ≤ y) : -y ≤ -x := by
  obtain ⟨hx, hy⟩ := isNaN_of_le h
  rw [le_iff] at h ⊢
  rwa [unpack_neg hx, unpack_neg hy, compare_neg]

theorem neg_neg_of_isNaN {x : Float} (hx : x.isNaN = false) : - -x = x := by
  obtain ⟨s, e, f, h, rfl⟩ := exists_ofParts hx
  rw [neg_ofParts h, neg_ofParts h]
  cases s <;> rfl

/-! ## absolute values -/

theorem abs_unpack_word (s : Sign) (e : BitVec 11) (f : BitVec 52) :
    (unpack Format.binary64 (word s e f)).abs = unpack Format.binary64 (word .positive e f) := by
  rw [unpack_word, unpack_word]
  split
  · split <;> rfl
  · split
    · split <;> rfl
    · rfl

theorem abs_ofParts {s : Sign} {e : BitVec 11} {f : BitVec 52} (h : IsNumber e f) :
    (ofParts s e f).abs = ofParts .positive e f := by
  show Float.ofModel (.pack (ofParts s e f).toModel.unpack.abs) = _
  rw [unpack_ofParts h, abs_unpack_word]
  rfl

theorem abs_eq_or {x : Float} (hx : x.isNaN = false) : x.abs = x ∨ x.abs = -x := by
  obtain ⟨s, e, f, h, rfl⟩ := exists_ofParts hx
  rw [abs_ofParts h, neg_ofParts h]
  cases s with
  | positive => exact .inl rfl
  | negative => exact .inr rfl

theorem zero_le_abs {x : Float} (hx : x.isNaN = false) : (0.0 : Float) ≤ x.abs := by
  obtain ⟨s, e, f, h, rfl⟩ := exists_ofParts hx
  have hzero : (0.0 : Float).toModel.unpack = .zero .positive := rfl
  rw [abs_ofParts h, le_iff, hzero, unpack_ofParts h, unpack_word]
  split
  · next he =>
    rw [if_pos (h he)]
    rfl
  · split
    · split <;> rfl
    · rfl

theorem isNaN_abs (x : Float) : x.abs.isNaN = x.isNaN := by
  cases hx : x.isNaN with
  | false => exact (isNaN_of_le (zero_le_abs hx)).2
  | true =>
    change x.toModel.unpack.isNaN = true at hx
    show (Float.Model.pack x.toModel.unpack.abs).unpack.isNaN = true
    cases hu : x.toModel.unpack with
    | notANumber => rfl
    | infinity | zero | finite =>
      rw [hu] at hx
      cases hx

/-- Plus and minus an absolute value are in order, unless it is not a number. -/
theorem neg_abs_le_abs_iff (x : Float) : -x.abs ≤ x.abs ↔ x.isNaN = false := by
  constructor
  · intro h
    rw [← isNaN_abs]
    exact (isNaN_of_le h).2
  · intro hx
    obtain ⟨s, e, f, h, rfl⟩ := exists_ofParts hx
    rw [abs_ofParts h, neg_ofParts h, le_iff, unpack_ofParts h, unpack_ofParts h, unpack_word,
      unpack_word]
    split
    · next he =>
      rw [if_pos (h he), if_pos (h he)]
      rfl
    · split
      · split <;> rfl
      · rfl

/-- What lies between plus and minus an absolute value is not above it in absolute value. -/
theorem abs_le_of_between {x c : Float} (hlower : -c.abs ≤ x) (hupper : x ≤ c.abs) : x.abs ≤ c.abs := by
  obtain ⟨hx, hc⟩ := isNaN_of_le hupper
  obtain h | h := abs_eq_or hx
  · rwa [h]
  · rw [h, ← neg_neg_of_isNaN hc]
    exact neg_le_neg_of_le hlower

end ArmServo.Binary64
