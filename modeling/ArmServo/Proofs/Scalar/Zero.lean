import Mathlib
import ArmServo.Chain.Segment
import ArmServo.Proofs.Scalar.Real
import ArmServo.Proofs.Scalar.Time

/-!
# Arithmetic in which zero stays zero

What is multiplied by zero vanishes, and adding it changes nothing: with these laws and an order
nothing starts to move by itself. The real numbers have them, also with infinities; double precision
does not, as zero times an infinity is undefined there.
-/

namespace ArmServo

/-- Scalars in which zero is absorbing for products, neutral for sums, and comparisons are those of
an order. -/
class ZeroLaws (α : Type) [Scalar α] : Prop where
  zero_mul (x : α) : 0 * x = 0
  mul_zero (x : α) : x * 0 = 0
  add_zero (x : α) : x + 0 = x
  zero_sub_zero : (0 : α) - 0 = 0
  zero_div (x : α) : 0 / x = 0
  beq_self (x : α) : (x == x) = true
  isFinite_zero : Scalar.isFinite (0 : α) = true
  le_trans {x y z : α} : x ≤ y → y ≤ z → x ≤ z
  not_lt {x y : α} : x ≤ y → ¬ y < x
  abs_nonneg (x : α) : 0 ≤ Scalar.abs x
  neg_nonpos {x : α} : 0 ≤ x → -x ≤ 0

instance : ZeroLaws ℝ where
  zero_mul := zero_mul
  mul_zero := mul_zero
  add_zero := add_zero
  zero_sub_zero := sub_zero 0
  zero_div := zero_div
  beq_self _ := decide_eq_true rfl
  isFinite_zero := rfl
  le_trans := le_trans
  not_lt := not_lt_of_ge
  abs_nonneg := abs_nonneg
  neg_nonpos := neg_nonpos_of_nonneg

instance : ZeroLaws EReal where
  zero_mul := zero_mul
  mul_zero := mul_zero
  add_zero := add_zero
  zero_sub_zero := sub_zero 0
  zero_div _ := EReal.zero_div
  beq_self _ := decide_eq_true rfl
  isFinite_zero := by simp [Scalar.isFinite]
  le_trans := le_trans
  not_lt := not_lt_of_ge
  abs_nonneg x := by
    show 0 ≤ max x (-x)
    rcases le_total 0 x with h | h
    · exact le_max_of_le_left h
    · exact le_max_of_le_right (EReal.neg_nonneg.mpr h)
  neg_nonpos := EReal.neg_le_zero.mpr

theorem Period.seconds_ereal (p : Period) : (p.seconds : EReal) = ((p.seconds : ℝ) : EReal) := by
  show ((p.wholeSeconds : ℝ) : EReal) + ((p.restNanos : ℝ) : EReal) / ((nanosPerSecond : ℝ) : EReal)
    = _
  rw [← EReal.coe_div, ← EReal.coe_add]
  rfl

instance : TellsTime EReal where
  seconds_le_zero_iff p := by
    rw [p.seconds_ereal, ← TellsTime.seconds_le_zero_iff (α := ℝ)]
    exact EReal.coe_nonpos

namespace ZeroLaws

variable {α : Type} [Scalar α] [ZeroLaws α]

theorem clampBetween?_eq_self {lower upper x : α} (hlower : lower ≤ x) (hupper : x ≤ upper) :
    clampBetween? lower upper x = some x := by
  unfold clampBetween?
  dsimp only
  rw [if_pos (ZeroLaws.le_trans hlower hupper), if_neg (ZeroLaws.not_lt hlower),
    if_neg (ZeroLaws.not_lt hupper)]

end ZeroLaws

end ArmServo
