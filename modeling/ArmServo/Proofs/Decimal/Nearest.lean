import Mathlib
import ArmServo.Decimal.Ratio

/-!
# Values, and the whole number next to them

What a fraction and a double stand for as a rational number, and which whole number is the nearest
to a rational number, of two equally near ones the even one. There is at most one such whole number,
and it does not fall when the number grows; the rounding of fractions finds it.

Main statements: `IsNearestEven.le`, `Ratio.isNearestEven_round`.
-/

namespace ArmServo

/-! ## the nearest whole number -/

/-- The whole number `n` is the nearest to `q`, and even if another one is as near. -/
structure IsNearestEven (q : ℚ) (n : ℕ) : Prop where
  near : |q - n| ≤ 1 / 2
  even : |q - n| = 1 / 2 → n % 2 = 0

namespace IsNearestEven

variable {q r : ℚ} {m n : ℕ}

/-- **Rounding is monotone.** A whole number that is the nearest to less is not larger: two of them
could only be in the wrong order if they were neighbours of the same number in the middle. -/
theorem le (hm : IsNearestEven q m) (hn : IsNearestEven r n) (h : q ≤ r) : m ≤ n := by
  by_contra hlt
  have hlow := (abs_le.mp hm.near).1
  have hhigh := (abs_le.mp hn.near).2
  have hstep : (n : ℚ) + 1 ≤ m := by exact_mod_cast not_le.mp hlt
  have hq : q - m = -(1 / 2) := by linarith
  have hr : r - n = 1 / 2 := by linarith
  have hnext : (m : ℚ) = n + 1 := by linarith
  have hm' := hm.even (by rw [hq, abs_neg, abs_of_pos (by norm_num)])
  have hn' := hn.even (by rw [hr, abs_of_pos (by norm_num)])
  have hsucc : m = n + 1 := by exact_mod_cast hnext
  omega

theorem unique (hm : IsNearestEven q m) (hn : IsNearestEven q n) : m = n :=
  Nat.le_antisymm (hm.le hn le_rfl) (hn.le hm le_rfl)

theorem of_lt_half (h : 0 ≤ q - n) (hq : q - n < 1 / 2) : IsNearestEven q n := by
  rw [← abs_of_nonneg h] at hq
  exact ⟨hq.le, fun htie => absurd htie hq.ne⟩

theorem of_half_lt (hq : 1 / 2 < q - n) (h : q - n ≤ 1) : IsNearestEven q (n + 1) := by
  have habs : |q - (n + 1 : ℕ)| < 1 / 2 := by
    push_cast
    rw [abs_lt]
    constructor <;> linarith
  exact ⟨habs.le, fun htie => absurd htie habs.ne⟩

theorem of_eq_half (hq : q - n = 1 / 2) : IsNearestEven q (if n % 2 = 0 then n else n + 1) := by
  split
  case isTrue heven => exact ⟨by rw [hq, abs_of_pos one_half_pos], fun _ => heven⟩
  case isFalse hodd =>
    have habs : |q - (n + 1 : ℕ)| = 1 / 2 := by
      push_cast
      rw [show q - (n + 1) = -(1 / 2) by linarith, abs_neg, abs_of_pos one_half_pos]
    exact ⟨habs.le, fun _ => by omega⟩

end IsNearestEven

/-! ## fractions -/

namespace Ratio

/-- What a fraction stands for. -/
def value (q : Ratio) : ℚ := q.num / q.den

theorem value_timesPowTwo (q : Ratio) (e : Int) : (q.timesPowTwo e).value = q.value * 2 ^ e := by
  cases e with
  | ofNat k =>
    have hnum : (q.timesPowTwo (.ofNat k)).value = (q.num * 2 ^ k : ℕ) / (q.den : ℚ) := rfl
    rw [hnum, value, Int.ofNat_eq_natCast, zpow_natCast]
    push_cast
    ring
  | negSucc k =>
    have hden : (q.timesPowTwo (.negSucc k)).value = q.num / ((q.den * 2 ^ (k + 1) : ℕ) : ℚ) := rfl
    rw [hden, value, zpow_negSucc]
    push_cast
    rw [div_mul_eq_div_div, div_eq_mul_inv _ ((2 : ℚ) ^ (k + 1))]

theorem value_ofBinary (m : ℕ) (e : Int) : (ofBinary m e).value = m * 2 ^ e := by
  rw [ofBinary, value_timesPowTwo]
  congr 1
  exact div_one _

theorem value_timesPowTen (q : Ratio) (k : ℕ) : (q.timesPowTen k).value = q.value * 10 ^ k := by
  have hnum : (q.timesPowTen k).value = (q.num * 10 ^ k : ℕ) / (q.den : ℚ) := rfl
  rw [hnum, value]
  push_cast
  ring

theorem den_ofBinary_pos (m : ℕ) (e : Int) : 0 < (ofBinary m e).den := by
  cases e with
  | ofNat k => exact Nat.one_pos
  | negSucc k => exact Nat.mul_pos Nat.one_pos (Nat.two_pow_pos (k + 1))

theorem value_eq (q : Ratio) (hq : 0 < q.den) :
    q.value = (q.num / q.den : ℕ) + ((q.num % q.den : ℕ) : ℚ) / q.den := by
  have hden : (q.den : ℚ) ≠ 0 := by exact_mod_cast hq.ne'
  have hparts : ((q.den * (q.num / q.den) + q.num % q.den : ℕ) : ℚ) = q.num := by
    rw [Nat.div_add_mod]
  push_cast at hparts
  rw [value, ← hparts]
  field_simp

/-- **The rounding of a fraction is the nearest whole number**, ties to even. -/
theorem isNearestEven_round (q : Ratio) (hq : 0 < q.den) : IsNearestEven q.value q.round := by
  have hden : (0 : ℚ) < q.den := by exact_mod_cast hq
  have hvalue := q.value_eq hq
  have hrest : q.num % q.den < q.den := Nat.mod_lt _ hq
  unfold round
  dsimp only
  generalize q.num / q.den = n at *
  generalize q.num % q.den = r at *
  have hr : q.value - n = r / q.den := by
    rw [hvalue]
    ring
  rcases lt_trichotomy (2 * r) q.den with hlt | heq | hlt
  · rw [if_pos hlt]
    refine .of_lt_half (hr ▸ by positivity) ?_
    rw [hr, div_lt_div_iff₀ hden two_pos]
    exact_mod_cast (by omega : r * 2 < 1 * q.den)
  · rw [if_neg heq.not_lt, if_neg heq.not_gt]
    refine .of_eq_half ?_
    rw [hr, div_eq_div_iff hden.ne' two_ne_zero]
    exact_mod_cast (by omega : r * 2 = 1 * q.den)
  · rw [if_neg hlt.not_gt, if_pos hlt]
    refine .of_half_lt ?_ ?_
    · rw [hr, div_lt_div_iff₀ two_pos hden]
      exact_mod_cast (by omega : 1 * q.den < r * 2)
    · rw [hr, div_le_one hden]
      exact_mod_cast hrest.le

end Ratio

/-! ## doubles -/

/-- What a double stands for, if it is finite. -/
def Exact.value? : Exact → Option ℚ
  | finite negative m e => some (if negative then -(m * 2 ^ e) else m * 2 ^ e)
  | _ => none

end ArmServo
