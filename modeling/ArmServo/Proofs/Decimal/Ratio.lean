import Mathlib
import ArmServo.Decimal.Ratio
import ArmServo.Proofs.Decimal.Bits

/-!
# The nearest double of a fraction

The nearest double depends on the value of a fraction and not on how it is written, and a fraction
that is a double is the nearest to itself.

Main statements: `nearestBits_scale`, `nearestBits_ofBinary`.
-/

namespace ArmServo.Ratio

/-! ## another numerator and denominator -/

/-- The same value, numerator and denominator times `k`. -/
def scale (k : Nat) (q : Ratio) : Ratio := ⟨q.num * k, q.den * k⟩

variable {k : Nat} {q : Ratio}

theorem scale_timesPowTwo (e : Int) : (q.scale k).timesPowTwo e = (q.timesPowTwo e).scale k := by
  cases e with
  | ofNat e => simp only [timesPowTwo, scale, Nat.mul_right_comm]
  | negSucc e => simp only [timesPowTwo, scale, Nat.mul_right_comm]

theorem round_scale (hk : 0 < k) : (q.scale k).round = q.round := by
  have hcompare : ∀ a b : Nat, a * k < b * k ↔ a < b := fun a b => Nat.mul_lt_mul_right hk
  unfold round scale
  dsimp only
  rw [Nat.mul_mod_mul_right, Nat.mul_div_mul_right _ _ hk, ← Nat.mul_assoc]
  simp only [hcompare]

theorem point_scale (count : Nat → Nat) (hk : 0 < k) (hq : 0 < q.num) :
    (q.scale k).point count = q.point count := by
  have hbelow : (q.den * k - 1) / (q.num * k) = (q.den - 1) / q.num := by
    rcases Nat.eq_zero_or_pos q.den with hzero | hden
    · simp [hzero]
    have hlow : (q.den - 1) / q.num * q.num + 1 ≤ q.den := by
      have := Nat.div_mul_le_self (q.den - 1) q.num
      omega
    have hhigh : q.den ≤ ((q.den - 1) / q.num + 1) * q.num := by
      have := Nat.lt_mul_of_div_lt (Nat.lt_add_one ((q.den - 1) / q.num)) hq
      omega
    have hlow := Nat.mul_le_mul_right k hlow
    have hhigh := Nat.mul_le_mul_right k hhigh
    refine Nat.div_eq_of_lt_le ?_ ?_
    · rw [← Nat.mul_assoc]
      rw [Nat.add_mul] at hlow
      omega
    · rw [← Nat.mul_assoc]
      have := Nat.mul_pos hden hk
      omega
  unfold point floor scale
  dsimp only
  rw [hbelow, Nat.mul_div_mul_right _ _ hk]
  simp only [Nat.mul_le_mul_right_iff hk]

theorem nearestBits_of_num_eq_zero (h : q.num = 0) : q.nearestBits = 0 := if_pos h

theorem nearestBits_of_ne_zero (h : q.num ≠ 0) :
    q.nearestBits = min ((q.binaryExponent - Exact.minimalExponent).toNat * Exact.fieldUnit +
      (q.timesPowTwo (-q.binaryExponent)).round) Exact.infinityBits := if_neg h

/-- **Fractions of one value have one nearest double.** -/
theorem nearestBits_scale (hk : 0 < k) : (q.scale k).nearestBits = q.nearestBits := by
  by_cases hzero : q.num = 0
  · have hscaled : (q.scale k).num = 0 := by
      show q.num * k = 0
      rw [hzero, Nat.zero_mul]
    rw [nearestBits_of_num_eq_zero hzero, nearestBits_of_num_eq_zero hscaled]
  · have hnum : 0 < q.num := Nat.pos_of_ne_zero hzero
    have hexponent : (q.scale k).binaryExponent = q.binaryExponent := by
      unfold binaryExponent
      rw [point_scale bitCount hk hnum]
    rw [nearestBits_of_ne_zero hzero, nearestBits_of_ne_zero (Nat.mul_pos hnum hk).ne', hexponent,
      scale_timesPowTwo, round_scale hk]

/-! ## fractions that are doubles -/

theorem bitCount_eq {n j : Nat} (hlow : 2 ^ j ≤ n) (hhigh : n < 2 ^ (j + 1)) :
    bitCount n = j + 1 := by
  have hn : n ≠ 0 := by
    have := Nat.two_pow_pos j
    omega
  unfold bitCount
  rw [(Nat.log2_eq_iff hn).mpr ⟨hlow, hhigh⟩]

theorem point_two_pow {m L k : Nat} (hlow : 2 ^ L ≤ m) (hhigh : m < 2 ^ (L + 1)) :
    (⟨m, 2 ^ k⟩ : Ratio).point bitCount = L + 1 - k := by
  have hm : 0 < m := (Nat.two_pow_pos L).trans_le hlow
  unfold point floor
  dsimp only
  by_cases hle : 2 ^ k ≤ m
  · have hkL : k ≤ L := by
      have := (Nat.pow_lt_pow_iff_right (by norm_num)).mp (hle.trans_lt hhigh)
      omega
    obtain ⟨j, rfl⟩ := Nat.exists_eq_add_of_le hkL
    rw [if_pos hle, bitCount_eq (j := j)]
    · push_cast
      ring
    · rw [Nat.le_div_iff_mul_le (Nat.two_pow_pos k), ← pow_add, Nat.add_comm]
      exact hlow
    · rw [Nat.div_lt_iff_lt_mul (Nat.two_pow_pos k), ← pow_add, Nat.add_right_comm, Nat.add_comm j]
      exact hhigh
  · have hLk : L < k := by
      by_contra hkL
      exact hle ((Nat.pow_le_pow_right (by norm_num) (by omega)).trans hlow)
    obtain ⟨j, rfl⟩ := Nat.exists_eq_add_of_lt hLk
    rw [if_neg hle, bitCount_eq (j := j)]
    · push_cast
      ring
    · rw [Nat.le_div_iff_mul_le hm]
      have hm' : m + 1 ≤ 2 ^ (L + 1) := hhigh
      have := Nat.mul_le_mul_left (2 ^ j) hm'
      have hpos := Nat.two_pow_pos j
      rw [← pow_add, Nat.mul_add, show j + (L + 1) = L + j + 1 by ring] at this
      omega
    · rw [Nat.div_lt_iff_lt_mul hm]
      have := Nat.mul_le_mul_left (2 ^ (j + 1)) hlow
      rw [← pow_add, show j + 1 + L = L + j + 1 by ring] at this
      have hpos := Nat.two_pow_pos (L + j + 1)
      omega

theorem point_ofBinary {m L : Nat} (hlow : 2 ^ L ≤ m) (hhigh : m < 2 ^ (L + 1)) (e : Int) :
    (ofBinary m e).point bitCount = L + 1 + e := by
  cases e with
  | ofNat k =>
    have h := point_two_pow (m := m * 2 ^ k) (L := L + k) (k := 0)
      (by rw [pow_add]; exact Nat.mul_le_mul_right _ hlow)
      (by rw [Nat.add_right_comm, pow_add]; exact Nat.mul_lt_mul_of_pos_right hhigh (Nat.two_pow_pos k))
    refine h.trans ?_
    rw [Int.ofNat_eq_natCast]
    push_cast
    ring
  | negSucc k =>
    have h := point_two_pow (k := k + 1) hlow hhigh
    rw [← Nat.one_mul (2 ^ (k + 1))] at h
    refine h.trans ?_
    rw [Int.negSucc_eq]
    push_cast
    ring

theorem round_of_dvd {n d : Nat} (hd : 0 < d) : (⟨n * d, d⟩ : Ratio).round = n := by
  unfold round
  dsimp only
  rw [Nat.mul_mod_left, Nat.mul_div_cancel _ hd, if_pos (by omega)]

theorem round_ofBinary (m : Nat) (e : Int) : ((ofBinary m e).timesPowTwo (-e)).round = m := by
  match e with
  | .ofNat 0 =>
    show (⟨m * 2 ^ 0 * 2 ^ 0, 1⟩ : Ratio).round = m
    rw [pow_zero, Nat.mul_one]
    exact round_of_dvd Nat.one_pos
  | .ofNat (k + 1) | .negSucc k =>
    show (⟨m * 2 ^ (k + 1), 1 * 2 ^ (k + 1)⟩ : Ratio).round = m
    rw [Nat.one_mul]
    exact round_of_dvd (Nat.two_pow_pos (k + 1))

theorem ofBinary_zero_num (e : Int) : (ofBinary 0 e).num = 0 := by
  cases e with
  | ofNat k => exact Nat.zero_mul _
  | negSucc k => rfl

theorem ofBinary_num_ne_zero {m : Nat} (hm : m ≠ 0) (e : Int) : (ofBinary m e).num ≠ 0 := by
  cases e with
  | ofNat k => exact (Nat.mul_pos (Nat.pos_of_ne_zero hm) (Nat.two_pow_pos k)).ne'
  | negSucc k => exact hm

/-- The bits of the double nearest to a fraction that is a double with `L + 1` binary digits. -/
theorem nearestBits_of_log {m L : Nat} {e : Int} (hlow : 2 ^ L ≤ m) (hhigh : m < 2 ^ (L + 1))
    (he : e = max (L + 1 + e - 53) Exact.minimalExponent) :
    (ofBinary m e).nearestBits =
      min ((e - Exact.minimalExponent).toNat * Exact.fieldUnit + m) Exact.infinityBits := by
  have hm : m ≠ 0 := by
    have := Nat.two_pow_pos L
    omega
  have hexponent : (ofBinary m e).binaryExponent = e := by
    unfold binaryExponent
    rw [point_ofBinary hlow hhigh, ← he]
  rw [nearestBits_of_ne_zero (ofBinary_num_ne_zero hm e), hexponent, round_ofBinary]

/-- **A double is the nearest to itself.** -/
theorem nearestBits_ofBinary {bits m : Nat} {e : Int} (hbits : bits < Exact.infinityBits)
    (h : Exact.ofBits bits = .finite false m e) : (ofBinary m e).nearestBits = bits := by
  have hinfinity : Exact.infinityBits = 2047 * 2 ^ 52 := by decide
  have hunit : Exact.fieldUnit = 2 ^ 52 := by decide
  have hmin : Exact.minimalExponent = -1074 := rfl
  obtain ⟨rfl, hm, rfl⟩ | ⟨k, hk, rfl, hlow, hhigh, rfl⟩ := Binary64.ofBits_eq_finite hbits h
  · rcases Nat.eq_zero_or_pos m with rfl | hpos
    · exact nearestBits_of_num_eq_zero (ofBinary_zero_num _)
    · have hlog := (Nat.log2_lt hpos.ne').mpr hm
      rw [nearestBits_of_log (Nat.log2_self_le hpos.ne') Nat.lt_log2_self (by omega), hunit,
        hinfinity]
      omega
  · rw [nearestBits_of_log (L := 52) hlow hhigh (by omega), hunit, hinfinity, hmin]
    omega

end ArmServo.Ratio
