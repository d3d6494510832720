import Mathlib
import ArmServo.Decimal.Digits
import ArmServo.Proofs.Decimal.Ratio

/-!
# Decimals that read back

Zeros at the end of a significand do not change what a decimal reads as, and the shortest digits of a
double read as that double.

Main statements: `nearestBits_mul_pow`, `nearestBits_shortest`.
-/

namespace ArmServo.Decimal

/-! ## places -/

theorem digitCount_le_iff {n k : Nat} : digitCount n ≤ k ↔ n < 10 ^ k := by
  unfold digitCount
  split
  · next hzero =>
    rw [hzero]
    exact ⟨fun _ => Nat.pow_pos (by omega), fun _ => Nat.zero_le k⟩
  · next hn =>
    cases k with
    | zero =>
      have := Nat.length_toDigits_pos (b := 10) (n := n)
      rw [pow_zero]
      omega
    | succ k => exact Nat.length_toDigits_le_iff (by omega) (Nat.succ_pos k)

theorem digitCount_mul_ten {n : Nat} (hn : n ≠ 0) : digitCount (n * 10) = digitCount n + 1 := by
  have hle : ∀ k, digitCount (n * 10) ≤ k + 1 ↔ digitCount n ≤ k := by
    intro k
    rw [digitCount_le_iff, digitCount_le_iff, pow_succ]
    exact Nat.mul_lt_mul_right (by omega)
  have hpos : ¬ digitCount (n * 10) ≤ 0 := by
    rw [digitCount_le_iff, pow_zero]
    omega
  have hupper := (hle (digitCount n)).mpr le_rfl
  have hlower := (hle (digitCount (n * 10) - 1)).mp (by omega)
  omega

/-! ## zeros at the end -/

theorem nearestBits_zero (e : Int) : (⟨0, e⟩ : Decimal).nearestBits = 0 := by
  have hzero : (⟨0, e⟩ : Decimal).toRatio.num = 0 := by
    cases e with
    | ofNat k => exact Nat.zero_mul _
    | negSucc k => rfl
  unfold nearestBits
  dsimp only
  rw [Ratio.nearestBits_of_num_eq_zero hzero, if_pos rfl]
  simp only [ite_self]

/-- The same fraction, perhaps with other numerator and denominator. -/
theorem toRatio_mul_ten (n : Nat) (e : Int) :
    (⟨n * 10, e - 1⟩ : Decimal).toRatio = (⟨n, e⟩ : Decimal).toRatio ∨
      (⟨n * 10, e - 1⟩ : Decimal).toRatio = (⟨n, e⟩ : Decimal).toRatio.scale 10 := by
  match e with
  | .ofNat (k + 1) =>
    have hexponent : Int.ofNat (k + 1) - 1 = .ofNat k := by
      rw [Int.ofNat_eq_natCast, Int.ofNat_eq_natCast]
      omega
    left
    rw [hexponent]
    show (⟨n * 10 * 10 ^ k, 1⟩ : Ratio) = ⟨n * 10 ^ (k + 1), 1⟩
    rw [Nat.mul_assoc, ← pow_succ']
  | .ofNat 0 =>
    right
    show (⟨n * 10, 1 * 10 ^ 1⟩ : Ratio) = ⟨n * 1 * 10, 1 * 10⟩
    rw [Nat.mul_one, pow_one]
  | .negSucc k =>
    right
    show (⟨n * 10, 1 * 10 ^ (k + 1 + 1)⟩ : Ratio) = ⟨n * 10, 1 * 10 ^ (k + 1) * 10⟩
    rw [Nat.mul_assoc, ← pow_succ]

theorem nearestBits_mul_ten (n : Nat) (e : Int) :
    (⟨n * 10, e - 1⟩ : Decimal).nearestBits = (⟨n, e⟩ : Decimal).nearestBits := by
  rcases eq_or_ne n 0 with rfl | hn
  · rw [Nat.zero_mul, nearestBits_zero, nearestBits_zero]
  · have hplaces : (digitCount (n * 10) : Int) + (e - 1) = digitCount n + e := by
      rw [digitCount_mul_ten hn]
      push_cast
      ring
    have hratio : (⟨n * 10, e - 1⟩ : Decimal).toRatio.nearestBits =
        (⟨n, e⟩ : Decimal).toRatio.nearestBits := by
      rcases toRatio_mul_ten n e with h | h
      · rw [h]
      · rw [h, Ratio.nearestBits_scale (by omega)]
    unfold nearestBits
    dsimp only
    rw [hplaces, hratio, if_neg hn, if_neg (Nat.mul_ne_zero hn (by omega))]

/-- **Zeros at the end of a significand do not matter.** -/
theorem nearestBits_mul_pow (n k : Nat) (e : Int) :
    (⟨n * 10 ^ k, e - k⟩ : Decimal).nearestBits = (⟨n, e⟩ : Decimal).nearestBits := by
  induction k generalizing e with
  | zero => simp
  | succ k ih =>
    have h := nearestBits_mul_ten (n * 10 ^ k) (e - k)
    rw [ih, Nat.mul_assoc, ← pow_succ, sub_sub] at h
    exact h

theorem nearestBits_dropZeros (rounds : Nat) (d : Decimal) :
    (dropZeros rounds d).nearestBits = d.nearestBits := by
  induction rounds generalizing d with
  | zero => rfl
  | succ k ih =>
    unfold dropZeros
    split
    · next hzeros =>
      have h := nearestBits_mul_ten (d.significand / 10) (d.exponent + 1)
      rw [Nat.div_mul_cancel (Nat.dvd_of_mod_eq_zero hzeros.2), add_sub_cancel_right] at h
      rw [ih, ← h]
    · rfl

/-! ## the shortest digits -/

theorem nearestBits_of_neighbour? {bits : Nat} {q : Ratio} {e : Int} {d : Decimal}
    (h : neighbour? bits q e = some d) : d.nearestBits = bits := by
  simpa using List.find?_some h

theorem range_of_ofBits {bits m : Nat} {e : Int} (hbits : bits < Exact.infinityBits)
    (h : Exact.ofBits bits = .finite false m e) : m < 2 ^ 53 ∧ -1074 ≤ e ∧ e ≤ 971 := by
  obtain ⟨-, hm, rfl⟩ | ⟨k, hk, -, -, hm, rfl⟩ := Binary64.ofBits_eq_finite hbits h
  · omega
  · omega

/-- A fraction that is a decimal within the cutoffs reads as its nearest double. -/
theorem nearestBits_of_places {d : Decimal}
    (hlow : -400 ≤ (digitCount d.significand : Int) + d.exponent)
    (hhigh : (digitCount d.significand : Int) + d.exponent ≤ 400) :
    d.nearestBits = d.toRatio.nearestBits := by
  unfold nearestBits
  dsimp only
  rw [if_neg (by omega), if_neg (by omega)]

theorem mul_two_pow_lt {m a b k : Nat} (hm : m < 2 ^ a) (h : a + b ≤ 3 * k) :
    m * 2 ^ b < 10 ^ k := by
  calc m * 2 ^ b < 2 ^ a * 2 ^ b := Nat.mul_lt_mul_of_pos_right hm (Nat.two_pow_pos b)
    _ = 2 ^ (a + b) := (pow_add 2 a b).symm
    _ ≤ 2 ^ (3 * k) := Nat.pow_le_pow_right (by omega) h
    _ = 8 ^ k := pow_mul 2 3 k
    _ ≤ 10 ^ k := Nat.pow_le_pow_left (by omega) k

theorem mul_five_pow_lt {m a : Nat} (hm : m < 10 ^ a) (b : Nat) : m * 5 ^ b < 10 ^ (a + b) := by
  calc m * 5 ^ b < 10 ^ a * 5 ^ b := Nat.mul_lt_mul_of_pos_right hm (Nat.pow_pos (by omega))
    _ ≤ 10 ^ a * 10 ^ b := Nat.mul_le_mul_left _ (Nat.pow_le_pow_left (by omega) b)
    _ = 10 ^ (a + b) := (pow_add 10 a b).symm

theorem ten_pow_le_five_pow {j i : Nat} (h : j ≤ 2 * i) : 10 ^ j ≤ 5 ^ (j + i) := by
  calc 10 ^ j = 5 ^ j * 2 ^ j := by rw [← Nat.mul_pow]
    _ ≤ 5 ^ j * 2 ^ (2 * i) := Nat.mul_le_mul_left _ (Nat.pow_le_pow_right (by omega) h)
    _ = 5 ^ j * 4 ^ i := congrArg _ (pow_mul 2 2 i)
    _ ≤ 5 ^ j * 5 ^ i := Nat.mul_le_mul_left _ (Nat.pow_le_pow_left (by omega) i)
    _ = 5 ^ (j + i) := (pow_add 5 j i).symm

/-- All digits of a double read as that double. -/
theorem nearestBits_all_digits {bits m : Nat} {e : Int} (hbits : bits < Exact.infinityBits)
    (h : Exact.ofBits bits = .finite false m e) : (ofBinary m e).nearestBits = bits := by
  obtain ⟨hm, hlow, hhigh⟩ := range_of_ofBits hbits h
  have hexact := Ratio.nearestBits_ofBinary hbits h
  cases e with
  | ofNat k =>
    rw [Int.ofNat_eq_natCast] at hhigh
    have hplaces : digitCount (m * 2 ^ k) ≤ 400 :=
      digitCount_le_iff.mpr (mul_two_pow_lt hm (by omega))
    rw [nearestBits_of_places]
    · rw [← hexact]
      show (⟨m * 2 ^ k * 10 ^ 0, 1⟩ : Ratio).nearestBits = (⟨m * 2 ^ k, 1⟩ : Ratio).nearestBits
      rw [pow_zero, Nat.mul_one]
    · show (-400 : Int) ≤ digitCount (m * 2 ^ k) + 0
      omega
    · show (digitCount (m * 2 ^ k) : Int) + 0 ≤ 400
      omega
  | negSucc k =>
    rcases Nat.eq_zero_or_pos m with rfl | hpos
    · rw [Ratio.nearestBits_of_num_eq_zero rfl] at hexact
      show (⟨0 * 5 ^ (k + 1), .negSucc k⟩ : Decimal).nearestBits = bits
      rw [Nat.zero_mul, nearestBits_zero, hexact]
    have hfive : 0 < 5 ^ (k + 1) := Nat.pow_pos (by omega)
    have hscale := Ratio.nearestBits_scale (q := ⟨m, 1 * 2 ^ (k + 1)⟩) hfive
    rw [nearestBits_of_places]
    · rw [← hexact]
      refine Eq.trans ?_ hscale
      show (⟨m * 5 ^ (k + 1), 1 * 10 ^ (k + 1)⟩ : Ratio).nearestBits =
        (⟨m * 5 ^ (k + 1), 1 * 2 ^ (k + 1) * 5 ^ (k + 1)⟩ : Ratio).nearestBits
      rw [Nat.mul_assoc 1, ← Nat.mul_pow]
    · show (-400 : Int) ≤ digitCount (m * 5 ^ (k + 1)) + Int.negSucc k
      by_contra hsmall
      have hplaces : digitCount (m * 5 ^ (k + 1)) ≤ k - 400 := by omega
      rw [digitCount_le_iff] at hplaces
      have hten := ten_pow_le_five_pow (j := k - 400) (i := 401) (by omega)
      rw [show k - 400 + 401 = k + 1 by omega] at hten
      have hmul := Nat.le_mul_of_pos_left (5 ^ (k + 1)) hpos
      omega
    · show (digitCount (m * 5 ^ (k + 1)) : Int) + Int.negSucc k ≤ 400
      have hlarge : m < 10 ^ 18 := by
        simpa using mul_two_pow_lt (b := 0) (k := 18) hm (by omega)
      have hplaces : digitCount (m * 5 ^ (k + 1)) ≤ 18 + (k + 1) :=
        digitCount_le_iff.mpr (mul_five_pow_lt hlarge (k + 1))
      omega

/-- **The shortest digits of a double read as that double.** -/
theorem nearestBits_shortest {bits m : Nat} {e : Int} (hbits : bits < Exact.infinityBits)
    (h : Exact.ofBits bits = .finite false m e) : (shortest m e).nearestBits = bits := by
  unfold shortest
  rw [nearestBits_dropZeros, Ratio.nearestBits_ofBinary hbits h]
  cases hfound : (List.range 17).findSome? fun n => neighbour? bits (Ratio.ofBinary m e)
      ((Ratio.ofBinary m e).point digitCount - (n + 1 : Nat)) with
  | none => exact nearestBits_all_digits hbits h
  | some d =>
    obtain ⟨n, -, hn⟩ := List.exists_of_findSome?_eq_some hfound
    exact nearestBits_of_neighbour? hn

end ArmServo.Decimal
