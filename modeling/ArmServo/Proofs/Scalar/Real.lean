import Mathlib
import ArmServo.Period
import ArmServo.Scalar

/-!
# Real numbers as scalars

The mathematics that the controller approximates: every number is finite and every operation exact.
The operations of `Scalar` are those of the real numbers by definition; the lemmas here say so once,
so that proofs can go on in the language of the real numbers.

Limits that are infinite on one side only are ranges over the extended real numbers. Between real
numbers everything is there as it is over `ℝ`; square roots and angles of infinities are never asked
for and count as zero, as does the quotient by an infinity.
-/

namespace ArmServo

/-- The nearest whole number to `x`, the even one of two. -/
noncomputable def roundToEven (x : ℝ) : ℕ :=
  let below := ⌊x⌋₊
  if x - below < 1 / 2 then below
  else if 1 / 2 < x - below then below + 1
  else if below % 2 = 0 then below else below + 1

theorem roundToEven_natCast (n : ℕ) : roundToEven n = n := by
  unfold roundToEven
  simp only [Nat.floor_natCast, sub_self]
  norm_num

noncomputable instance : Scalar ℝ where
  toZero := inferInstance
  toOne := inferInstance
  toAdd := inferInstance
  toSub := inferInstance
  toMul := inferInstance
  toDiv := inferInstance
  toNeg := inferInstance
  toLT := inferInstance
  toLE := inferInstance
  beq x y := decide (x = y)
  decLt := inferInstance
  decLe := inferInstance
  ofNat := Nat.cast
  abs x := |x|
  sqrt := Real.sqrt
  sin := Real.sin
  cos := Real.cos
  isFinite _ := true
  nanoseconds? x :=
    let n := roundToEven (x * 10 ^ 9)
    if 0 ≤ x ∧ n < Period.bound then some n else none

namespace Scalar

@[simp] theorem ofNat_real (n : ℕ) : (ofNat n : ℝ) = n := rfl

@[simp] theorem two_real : (two : ℝ) = 2 := by
  unfold two
  norm_num

@[simp] theorem half_real : (half : ℝ) = 1 / 2 := by
  unfold half
  rw [two_real]

@[simp] theorem negPowTen_real (n : ℕ) : (negPowTen n : ℝ) = 1 / 10 ^ n := by
  unfold negPowTen
  rw [ofNat_real]
  norm_num

theorem negPowTen_real_pos (n : ℕ) : (0 : ℝ) < negPowTen n := by
  rw [negPowTen_real]
  positivity

theorem negPowTen_real_le_one (n : ℕ) : (negPowTen n : ℝ) ≤ 1 := by
  rw [negPowTen_real]
  exact div_le_one_of_le₀ (one_le_pow₀ (by norm_num)) (by positivity)

@[simp] theorem sin_real (x : ℝ) : sin x = Real.sin x := rfl

@[simp] theorem cos_real (x : ℝ) : cos x = Real.cos x := rfl

@[simp] theorem sqrt_real (x : ℝ) : sqrt x = √x := rfl

@[simp] theorem abs_real (x : ℝ) : Scalar.abs x = |x| := rfl

@[simp] theorem beq_real (x y : ℝ) : (x == y) = decide (x = y) := rfl

end Scalar

/-! ## with infinities -/

noncomputable instance : Scalar EReal where
  toZero := inferInstance
  toOne := inferInstance
  toAdd := inferInstance
  toSub := inferInstance
  toMul := inferInstance
  toDiv := inferInstance
  toNeg := inferInstance
  toLT := inferInstance
  toLE := inferInstance
  beq x y := decide (x = y)
  decLt := inferInstance
  decLe := inferInstance
  ofNat n := ((n : ℝ) : EReal)
  abs x := max x (-x)
  sqrt x := (√x.toReal : ℝ)
  sin x := (Real.sin x.toReal : ℝ)
  cos x := (Real.cos x.toReal : ℝ)
  isFinite x := decide (x ≠ ⊥ ∧ x ≠ ⊤)
  nanoseconds? x := Scalar.nanoseconds? x.toReal

@[simp] theorem Scalar.beq_ereal (x y : EReal) : (x == y) = decide (x = y) := rfl

end ArmServo
