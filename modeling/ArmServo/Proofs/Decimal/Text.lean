import Mathlib
import ArmServo.Decimal.Read
import ArmServo.Decimal.Text
import ArmServo.Proofs.Decimal.Digits

/-!
# Decimals as text

A decimal is written as digits, a point and digits, of which the point and what follows are left out
if it is whole. Read together, the digits are the significand again, perhaps with zeros behind it.

Main statement: `exists_pointed`.
-/

namespace ArmServo.Decimal

/-! ## digits -/

theorem ofDigits_eq (cs : List Char) : ofDigits cs = Nat.ofDigitChars 10 cs 0 := by
  unfold ofDigits
  rw [Nat.ofDigitChars_eq_foldl]
  simp only [Nat.mul_comm]

theorem isDigit_of_mem_toDigits {n : Nat} {c : Char} (hc : c ∈ Nat.toDigits 10 n) :
    c.isDigit = true := Nat.isDigit_of_mem_toDigits (by omega) (by omega) hc

theorem eq_zero_of_head?_toDigits {n : Nat} (h : (Nat.toDigits 10 n).head? = some '0') : n = 0 := by
  induction n using Nat.strongRecOn with
  | ind n ih =>
    rcases Nat.lt_or_ge n 10 with hn | hn
    · rw [Nat.toDigits_of_lt_base hn] at h
      simpa using h
    · rw [Nat.toDigits_of_base_le (by omega) hn, List.head?_append_of_ne_nil _ Nat.toDigits_ne_nil] at h
      have := ih (n / 10) (by omega) h
      omega

theorem toList_toString (n : Nat) : (toString n).toList = Nat.toDigits 10 n := Nat.toList_repr

theorem toList_zeros (n : Nat) : (Text.zeros n).toList = List.replicate n '0' :=
  String.toList_ofList

/-! ## what is written -/

/-- Digits before a point and behind it. There is one at least on each side, and those in front do not
begin with a needless zero. -/
structure Pointed (front back : List Char) : Prop where
  front_ne_nil : front ≠ []
  back_ne_nil : back ≠ []
  front_digits : ∀ c ∈ front, c.isDigit = true
  back_digits : ∀ c ∈ back, c.isDigit = true
  front_zero : front.head? = some '0' → front = ['0']

/-- What digits before a point and behind it are read as. -/
def ofPointed (front back : List Char) : Decimal := ⟨ofDigits (front ++ back), -(back.length : Int)⟩

/-- The text with a point in any case. -/
def withPoint (s : String) : String := if s.contains '.' then s else s ++ ".0"

theorem toList_withPoint_of_mem {s : String} (h : '.' ∈ s.toList) : (withPoint s).toList = s.toList := by
  unfold withPoint
  rw [String.contains_char_eq, if_pos (decide_eq_true h)]

theorem toList_withPoint_of_not_mem {s : String} (h : '.' ∉ s.toList) :
    (withPoint s).toList = s.toList ++ ['.', '0'] := by
  unfold withPoint
  rw [String.contains_char_eq, if_neg (by simpa using h), String.toList_append]
  rfl

/-! ## whole decimals -/

theorem toList_positional_ofNat (n k : Nat) : (positional ⟨n, .ofNat k⟩).toList =
    Nat.toDigits 10 n ++ List.replicate (if n = 0 then 0 else k) '0' := by
  unfold positional
  dsimp only
  rw [String.toList_append, toList_toString, toList_zeros]

theorem pointed_of_whole {n k : Nat} (hk : n = 0 → k = 0) :
    Pointed (Nat.toDigits 10 n ++ List.replicate k '0') ['0'] where
  front_ne_nil := by simp
  back_ne_nil := by simp
  front_digits := by
    intro c hc
    rcases List.mem_append.mp hc with hc | hc
    · exact isDigit_of_mem_toDigits hc
    · rw [List.eq_of_mem_replicate hc]
      rfl
  back_digits := by
    intro c hc
    rw [List.mem_singleton.mp hc]
    rfl
  front_zero := by
    intro h
    rw [List.head?_append_of_ne_nil _ Nat.toDigits_ne_nil] at h
    have hn := eq_zero_of_head?_toDigits h
    rw [hn, hk hn]
    rfl

theorem nearestBits_ofPointed_whole {n k : Nat} :
    (ofPointed (Nat.toDigits 10 n ++ List.replicate k '0') ['0']).nearestBits =
      (⟨n, .ofNat k⟩ : Decimal).nearestBits := by
  have hdigits : ofDigits (Nat.toDigits 10 n ++ List.replicate k '0' ++ ['0']) = n * 10 ^ (k + 1) := by
    rw [ofDigits_eq, List.append_assoc, ← List.replicate_succ', Nat.ofDigitChars_append,
      Nat.ofDigitChars_ten_toDigits, Nat.ofDigitChars_replicate_zero, Nat.mul_comm]
  have h := nearestBits_mul_pow n (k + 1) (.ofNat k)
  unfold ofPointed
  rw [hdigits, ← h]
  congr 2
  rw [Int.ofNat_eq_natCast]
  simp

/-! ## decimals with a fraction -/

theorem toList_padZeros {width n : Nat} : (Text.padZeros width n).toList =
    List.replicate (width - (Nat.toDigits 10 n).length) '0' ++ Nat.toDigits 10 n := by
  unfold Text.padZeros
  rw [String.toList_append, toList_zeros, toList_toString, ← String.length_toList, toList_toString]

theorem toList_positional_negSucc (n k : Nat) : (positional ⟨n, .negSucc k⟩).toList =
    Nat.toDigits 10 (n / 10 ^ (k + 1)) ++
      '.' :: (Text.padZeros (k + 1) (n % 10 ^ (k + 1))).toList := by
  unfold positional
  dsimp only
  rw [String.toList_append, String.toList_append, toList_toString]
  simp

theorem length_padZeros {n k : Nat} (hn : n < 10 ^ (k + 1)) :
    (Text.padZeros (k + 1) n).toList.length = k + 1 := by
  have hlength := (Nat.length_toDigits_le_iff (by omega) (Nat.succ_pos k)).mpr hn
  rw [toList_padZeros, List.length_append, List.length_replicate]
  omega

theorem ofDigits_append_padZeros (a b width : Nat) :
    ofDigits (Nat.toDigits 10 a ++ (Text.padZeros width b).toList) =
      a * 10 ^ (Text.padZeros width b).toList.length + b := by
  have hpad : Nat.ofDigitChars 10 (Text.padZeros width b).toList 0 = b := by
    rw [toList_padZeros, Nat.ofDigitChars_append, Nat.ofDigitChars_replicate_zero, Nat.mul_zero,
      Nat.ofDigitChars_ten_toDigits]
  rw [ofDigits_eq, Nat.ofDigitChars_append, Nat.ofDigitChars_ten_toDigits,
    Nat.ofDigitChars_eq_ofDigitChars_zero, hpad, Nat.mul_comm]

theorem pointed_of_fraction (a b k : Nat) :
    Pointed (Nat.toDigits 10 a) (Text.padZeros (k + 1) b).toList where
  front_ne_nil := Nat.toDigits_ne_nil
  back_ne_nil := by simp [toList_padZeros]
  front_digits _ hc := isDigit_of_mem_toDigits hc
  back_digits := by
    intro c hc
    rw [toList_padZeros] at hc
    rcases List.mem_append.mp hc with hc | hc
    · rw [List.eq_of_mem_replicate hc]
      rfl
    · exact isDigit_of_mem_toDigits hc
  front_zero := by
    intro h
    rw [eq_zero_of_head?_toDigits h]
    rfl

/-- **A decimal is written as digits, a point and digits that read as it does.** -/
theorem exists_pointed (d : Decimal) : ∃ front back, Pointed front back ∧
    (withPoint d.positional).toList = front ++ '.' :: back ∧
      (ofPointed front back).nearestBits = d.nearestBits := by
  obtain ⟨n, k | k⟩ := d
  · have htext := toList_positional_ofNat n k
    have hpointed := pointed_of_whole (n := n) (k := if n = 0 then 0 else k) fun h => if_pos h
    refine ⟨_, _, hpointed, ?_, ?_⟩
    · rw [toList_withPoint_of_not_mem, htext]
      intro hmem
      rw [htext] at hmem
      exact absurd (hpointed.front_digits _ hmem) (by decide)
    · rw [nearestBits_ofPointed_whole]
      split
      · next hzero => rw [hzero, nearestBits_zero, nearestBits_zero]
      · rfl
  · have htext := toList_positional_negSucc n k
    refine ⟨_, _, pointed_of_fraction (n / 10 ^ (k + 1)) (n % 10 ^ (k + 1)) k, ?_, ?_⟩
    · rw [toList_withPoint_of_mem, htext]
      rw [htext]
      simp
    · unfold ofPointed
      rw [ofDigits_append_padZeros, length_padZeros (Nat.mod_lt _ (Nat.pow_pos (by omega))),
        Nat.div_add_mod']
      rfl

end ArmServo.Decimal
