import Mathlib
import ArmServo.Period
import ArmServo.Proofs.Decimal.Bits
import ArmServo.Proofs.Scalar.Order

/-!
# How small a double can be

Rounding never takes a positive number below the power of two below it, as long as that power is a
double. So a whole number that is not zero, and a nanosecond in seconds, are doubles above zero, and
so is a period that is not zero.

Main statement: `seconds_pos`.
-/

namespace ArmServo.Binary64

open Float.Model (UnpackedFloat Format totalExponent)
open Float.Model.UnpackedFloat

/-- The double is `2 ^ k` at least. -/
def AtLeast (k : Int) : UnpackedFloat → Prop
  | .infinity .positive => True
  | .finite .positive m e _ => k ≤ m.log2 + e
  | _ => False

/-- The significand has all its digits, or the exponent is the smallest there is. -/
def IsCanonical (m : Nat) (e : Int) : Prop := m < 2 ^ 53 ∧ -1074 ≤ e ∧ (2 ^ 52 ≤ m ∨ e = -1074)

theorem atLeast_iff {k : Int} {f : UnpackedFloat} :
    AtLeast k f ↔ f = .infinity .positive ∨
      ∃ m e hm, f = .finite .positive m e hm ∧ k ≤ m.log2 + e := by
  constructor
  · intro h
    rcases f with (_ | _) | _ | _ | ⟨_ | _, m, e, hm⟩
    · exact False.elim h
    · exact .inl rfl
    · exact False.elim h
    · exact False.elim h
    · exact False.elim h
    · exact .inr ⟨m, e, hm, rfl, h⟩
  · rintro (rfl | ⟨m, e, hm, rfl, h⟩)
    · exact True.intro
    · exact h

theorem pos_of_atLeast {x : Float} {k : Int} (h : AtLeast k x.toModel.unpack) : (0.0 : Float) < x := by
  have hzero : (0.0 : Float).toModel.unpack = .zero .positive := rfl
  rw [lt_iff, hzero]
  obtain h | ⟨m, e, hm, h, -⟩ := atLeast_iff.mp h
  · rw [h]
    rfl
  · rw [h]
    rfl

/-! ## rounding -/

theorem mantissa_shiftRight (em : ExtendedMantissa) (n : Nat) :
    (em >>> n).mantissa = em.mantissa / 2 ^ n := by
  induction n with
  | zero => exact (Nat.div_one _).symm
  | succ n ih =>
    show (em >>> n).mantissa / 2 = _
    rw [ih, Nat.div_div_eq_div_mul, Nat.pow_succ]

theorem mantissa_le_roundedMantissa (em : ExtendedMantissa) :
    em.mantissa ≤ em.roundedMantissa := by
  rcases em with ⟨m, _ | _, _ | _⟩
  · exact Nat.le_refl m
  · exact Nat.le_refl m
  · exact Nat.le_add_right m _
  · exact Nat.le_add_right m 1

theorem roundedMantissa_le (em : ExtendedMantissa) : em.roundedMantissa ≤ em.mantissa + 1 := by
  rcases em with ⟨m, _ | _, _ | _⟩
  · exact Nat.le_succ m
  · exact Nat.le_succ m
  · exact Nat.add_le_add_left (Nat.le_of_lt_succ (Nat.mod_lt m Nat.two_pos)) m
  · exact Nat.le_refl (m + 1)

/-- A carry moves the leading digit up by one place at most. -/
theorem log2_roundedMantissa_le {em : ExtendedMantissa} (h : 0 < em.mantissa) :
    em.roundedMantissa.log2 ≤ em.mantissa.log2 + 1 := by
  refine Nat.le_of_lt_succ ((Nat.log2_lt ?_).mpr ?_)
  · exact (h.trans_le (mantissa_le_roundedMantissa em)).ne'
  · calc em.roundedMantissa ≤ em.mantissa + 1 := roundedMantissa_le em
      _ ≤ 2 ^ (em.mantissa.log2 + 1) := Nat.lt_log2_self
      _ < 2 ^ (em.mantissa.log2 + 1 + 1) := Nat.pow_lt_pow_right Nat.one_lt_two (Nat.lt_succ_self _)

theorem targetExponent_eq (t : Int) :
    Format.binary64.targetExponent t = max (t - 53) (-1074) := rfl

/-- How far a significand is shifted to the right before it is rounded. -/
def shiftWidth (m : Nat) (e : Int) : Nat := (max (totalExponent m e - 53) (-1074) - e).toNat

theorem shiftToTargetExponent_eq (m : Nat) (e : Int) (a : Accuracy) :
    (shiftToTargetExponent Format.binary64 m e a).1.mantissa = m / 2 ^ shiftWidth m e ∧
      (shiftToTargetExponent Format.binary64 m e a).2 = e + shiftWidth m e := by
  unfold shiftToTargetExponent shiftToExponent
  dsimp only
  rw [targetExponent_eq, mantissa_shiftRight]
  refine ⟨?_, rfl⟩
  rcases a with _ | (_ | _ | _) <;> rfl

theorem log2_shift {m s : Nat} (hm : 0 < m) (hs : s ≤ m.log2) :
    0 < m / 2 ^ s ∧ (m / 2 ^ s).log2 + s = m.log2 := by
  have hlow : 2 ^ (m.log2 - s) ≤ m / 2 ^ s := by
    rw [Nat.le_div_iff_mul_le (Nat.two_pow_pos s), ← Nat.pow_add, Nat.sub_add_cancel hs]
    exact Nat.log2_self_le hm.ne'
  have hhigh : m / 2 ^ s < 2 ^ (m.log2 - s + 1) := by
    rw [Nat.div_lt_iff_lt_mul (Nat.two_pow_pos s), ← Nat.pow_add,
      show m.log2 - s + 1 + s = m.log2 + 1 by omega]
    exact Nat.lt_log2_self
  have hpos : 0 < m / 2 ^ s := (Nat.two_pow_pos _).trans_le hlow
  have hlog := (Nat.log2_eq_iff hpos.ne').mpr ⟨hlow, hhigh⟩
  exact ⟨hpos, by omega⟩

theorem log2_le_log2 {m n : Nat} (hm : 0 < m) (h : m ≤ n) : m.log2 ≤ n.log2 :=
  (Nat.le_log2 (hm.trans_le h).ne').mpr ((Nat.log2_self_le hm.ne').trans h)

/-- What is left of a significand after a shift can be packed, and its leading digit is where it was.
The digits have to be there before: a significand is only shifted to the right. -/
structure Shifted (m : Nat) (e : Int) (n : Nat) (f : Int) : Prop where
  pos : 0 < n
  place : n.log2 + f = m.log2 + e
  canonical : IsCanonical n f

theorem shifted {m : Nat} {e : Int} (hm : 0 < m) (hplace : -1074 ≤ m.log2 + e)
    (hdigits : 52 ≤ m.log2 ∨ e ≤ -1074) (a : Accuracy) :
    Shifted m e (shiftToTargetExponent Format.binary64 m e a).1.mantissa
      (shiftToTargetExponent Format.binary64 m e a).2 := by
  obtain ⟨hmantissa, hexponent⟩ := shiftToTargetExponent_eq m e a
  rw [hmantissa, hexponent]
  have hwidth : shiftWidth m e ≤ m.log2 := by
    unfold shiftWidth totalExponent
    omega
  obtain ⟨hpos, hlog⟩ := log2_shift hm hwidth
  refine ⟨hpos, by omega, ?_, by unfold shiftWidth totalExponent; omega, ?_⟩
  · rw [Nat.div_lt_iff_lt_mul (Nat.two_pow_pos _), ← Nat.pow_add]
    refine Nat.lt_log2_self.trans_le (Nat.pow_le_pow_right Nat.two_pos ?_)
    unfold shiftWidth totalExponent
    omega
  · by_cases hfull : shiftWidth m e + 52 = m.log2
    · refine .inl ?_
      rw [Nat.le_div_iff_mul_le (Nat.two_pow_pos _), ← Nat.pow_add, Nat.add_comm, hfull]
      exact Nat.log2_self_le hm.ne'
    · refine .inr ?_
      unfold shiftWidth totalExponent at hfull ⊢
      omega

/-- What a significand is rounded to can be packed, and its leading digit is where it was or one
place up. -/
structure Rounded (m : Nat) (e : Int) (n : Nat) (f : Int) : Prop where
  pos : 0 < n
  place : m.log2 + e ≤ n.log2 + f
  below : n.log2 + f ≤ m.log2 + e + 1
  canonical : IsCanonical n f

/-- **Rounding keeps the place of the leading digit**, or moves it up by one. -/
theorem exists_roundWithAccuracy {m : Nat} {e : Int} (hm : 0 < m) (hplace : -1074 ≤ m.log2 + e)
    (hdigits : 52 ≤ m.log2 ∨ e ≤ -1074) (s : Sign) (a : Accuracy) :
    ∃ n f hn, roundWithAccuracy Format.binary64 s m e a = .finite s n f hn ∧ Rounded m e n f := by
  have hfirst := shifted hm hplace hdigits a
  have hrounded := mantissa_le_roundedMantissa (shiftToTargetExponent Format.binary64 m e a).1
  have hcarry := log2_roundedMantissa_le hfirst.pos
  unfold roundWithAccuracy
  dsimp only
  generalize shiftToTargetExponent Format.binary64 m e a = first at *
  have hlog := log2_le_log2 hfirst.pos hrounded
  have hdigits' : 52 ≤ first.1.roundedMantissa.log2 ∨ first.2 ≤ -1074 := by
    refine hfirst.canonical.2.2.imp (fun h => ?_) Int.le_of_eq
    exact (Nat.le_log2 (hfirst.pos.trans_le hrounded).ne').mpr (h.trans hrounded)
  have hplace' := hfirst.place
  have hlast := shifted (hfirst.pos.trans_le hrounded) (by omega) hdigits' .exact
  have hlast' := hlast.place
  exact ⟨_, _, hlast.pos, dif_neg hlast.pos.ne',
    ⟨hlast.pos, by omega, by omega, hlast.canonical⟩⟩

/-! ## packing -/

theorem unpack_pack_of_lt {m : Nat} {e : Int} (hm : 0 < m) (h : IsCanonical m e) (he : e < 972)
    (s : Sign) : (Float.Model.pack (.finite s m e hm)).unpack = .finite s m e hm := by
  obtain ⟨hlt, hmin, hfull⟩ := h
  show unpack Format.binary64 (pack Format.binary64 (.finite s m e hm)) = _
  by_cases hlow : 2 ^ 52 ≤ m
  · obtain ⟨b, rfl⟩ : ∃ b : Nat, e = b - 1075 := ⟨(e + 1075).toNat, by omega⟩
    rw [pack_normal hm hlow hlt (by omega), unpack_word]
    have hexponent : (BitVec.ofNat 11 b).toNat = b := by
      rw [BitVec.toNat_ofNat]
      exact Nat.mod_eq_of_lt (by omega)
    have hfraction : 2 ^ 52 + (BitVec.ofNat 52 m).toNat = m := by
      rw [BitVec.toNat_ofNat]
      omega
    rw [if_neg fun hall => ?_, if_neg fun hnone => ?_]
    · simp only [hexponent, hfraction]
    · rw [hnone] at hexponent
      change 0 = b at hexponent
      omega
    · rw [hall] at hexponent
      change 2047 = b at hexponent
      omega
  · obtain rfl := hfull.resolve_left hlow
    rw [pack_subnormal hm (Nat.lt_of_not_le hlow), unpack_word]
    have hfraction : (BitVec.ofNat 52 m).toNat = m := by
      rw [BitVec.toNat_ofNat]
      omega
    rw [if_neg (by decide), if_pos rfl, dif_neg fun hnone => ?_]
    · simp only [hfraction]
    · rw [hnone] at hfraction
      exact hm.ne hfraction

theorem unpack_pack {m : Nat} {e : Int} (hm : 0 < m) (h : IsCanonical m e) (s : Sign) :
    (Float.Model.pack (.finite s m e hm)).unpack = .finite s m e hm ∨
      (Float.Model.pack (.finite s m e hm)).unpack = .infinity s := by
  by_cases he : e < 972
  · exact .inl (unpack_pack_of_lt hm h he s)
  · refine .inr ?_
    obtain ⟨b, rfl⟩ : ∃ b : Nat, e = b - 1075 := ⟨(e + 1075).toNat, by omega⟩
    show unpack Format.binary64 (pack Format.binary64 (.finite s m _ hm)) = _
    have hbias : ((b : Int) - 1075 + Format.binary64.exponentBias +
        Format.binary64.mantissaBitsWithoutImplicit).toNat = b := by
      show ((b : Int) - 1075 + (1023 : Nat) + (52 : Nat)).toNat = b
      omega
    unfold pack
    dsimp only
    rw [hbias, if_pos (show 2 ^ 11 ≤ b + 1 by omega)]
    cases s <;> rfl

theorem atLeast_roundWithAccuracy {m : Nat} {e k : Int} (hm : 0 < m) (hplace : -1074 ≤ m.log2 + e)
    (hdigits : 52 ≤ m.log2 ∨ e ≤ -1074) (hk : k ≤ m.log2 + e) (a : Accuracy) :
    AtLeast k (Float.Model.pack (roundWithAccuracy Format.binary64 .positive m e a)).unpack := by
  obtain ⟨n, f, hn, hround, hshifted⟩ := exists_roundWithAccuracy hm hplace hdigits .positive a
  rw [hround]
  obtain h | h := unpack_pack hn hshifted.canonical .positive
  · rw [h]
    exact hk.trans hshifted.place
  · rw [h]
    exact True.intro

theorem shiftLeft_pos {m : Nat} (hm : 0 < m) (n : Nat) : 0 < m <<< n := by
  rw [Nat.shiftLeft_eq]
  exact Nat.mul_pos hm (Nat.two_pow_pos n)

theorem log2_shiftLeft {m : Nat} (hm : 0 < m) (n : Nat) : (m <<< n).log2 = m.log2 + n := by
  rw [Nat.shiftLeft_eq, Nat.log2_eq_iff (Nat.mul_pos hm (Nat.two_pow_pos n)).ne']
  obtain ⟨hlow, hhigh⟩ := (Nat.log2_eq_iff hm.ne').mp rfl
  rw [Nat.pow_add, show m.log2 + n + 1 = m.log2 + 1 + n by omega, Nat.pow_add]
  exact ⟨Nat.mul_le_mul_right _ hlow, Nat.mul_lt_mul_of_pos_right hhigh (Nat.two_pow_pos n)⟩

theorem atLeast_round {m : Nat} {e k : Int} (hm : 0 < m) (hplace : -1074 ≤ m.log2 + e)
    (hk : k ≤ m.log2 + e) :
    AtLeast k (Float.Model.pack (UnpackedFloat.round Format.binary64 .positive m e)).unpack := by
  unfold UnpackedFloat.round decreaseExponent
  dsimp only
  rw [targetExponent_eq]
  generalize hn : (e - max (totalExponent m e - 53) (-1074)).toNat = n
  have htotal : totalExponent m e = m.log2 + 1 + e := rfl
  refine atLeast_roundWithAccuracy (shiftLeft_pos hm n) ?_ ?_ ?_ .exact <;> rw [log2_shiftLeft hm n]
  · omega
  · omega
  · omega

theorem atLeast_normalize {m : Nat} {e k : Int} (hm : 0 < m) (hplace : -1074 ≤ m.log2 + e)
    (hk : k ≤ m.log2 + e) :
    AtLeast k (Float.Model.pack (UnpackedFloat.normalize Format.binary64 m e .positive)).unpack := by
  unfold UnpackedFloat.normalize
  rw [Int.compare_eq_gt.mpr (by omega)]
  exact atLeast_round hm hplace hk

/-! ## arithmetic -/

theorem atLeast_mul {m n : Nat} {e f k : Int} (hm : 0 < m) (hn : 0 < n)
    (hfull : 52 ≤ m.log2 ∨ 52 ≤ n.log2) (hplace : -1074 ≤ m.log2 + e + (n.log2 + f))
    (hk : k ≤ m.log2 + e + (n.log2 + f)) :
    AtLeast k (Float.Model.pack (mul Format.binary64 (.finite .positive m e hm)
      (.finite .positive n f hn))).unpack := by
  have hlog : m.log2 + n.log2 ≤ (m * n).log2 := by
    rw [Nat.le_log2 (Nat.mul_pos hm hn).ne', Nat.pow_add]
    exact Nat.mul_le_mul (Nat.log2_self_le hm.ne') (Nat.log2_self_le hn.ne')
  refine atLeast_roundWithAccuracy (Nat.mul_pos hm hn) ?_ (.inl ?_) ?_ .exact
  · omega
  · omega
  · omega

theorem le_log2_div {m n : Nat} (hn : 0 < n) (h : n.log2 + 1 ≤ m.log2) :
    0 < m / n ∧ m.log2 ≤ (m / n).log2 + n.log2 + 1 := by
  have hm : m ≠ 0 := by
    rintro rfl
    exact absurd h (by simp)
  have hlow : 2 ^ (m.log2 - (n.log2 + 1)) ≤ m / n := by
    rw [Nat.le_div_iff_mul_le hn]
    calc 2 ^ (m.log2 - (n.log2 + 1)) * n
        ≤ 2 ^ (m.log2 - (n.log2 + 1)) * 2 ^ (n.log2 + 1) :=
          Nat.mul_le_mul_left _ Nat.lt_log2_self.le
      _ = 2 ^ m.log2 := by rw [← Nat.pow_add, Nat.sub_add_cancel h]
      _ ≤ m := Nat.log2_self_le hm
  have hpos := (Nat.two_pow_pos _).trans_le hlow
  have hlog := (Nat.le_log2 hpos.ne').mpr hlow
  exact ⟨hpos, by omega⟩

theorem atLeast_div {m n : Nat} {e f k : Int} (hm : 0 < m) (hn : 0 < n)
    (hplace : -1074 ≤ m.log2 + e - (n.log2 + f) - 1) (hk : k ≤ m.log2 + e - (n.log2 + f) - 1) :
    AtLeast k (Float.Model.pack (div Format.binary64 (.finite .positive m e hm)
      (.finite .positive n f hn))).unpack := by
  have htotal : totalExponent m e - totalExponent n f = m.log2 + e - (n.log2 + f) := by
    unfold totalExponent
    omega
  unfold div divCore
  dsimp only
  rw [targetExponent_eq, htotal]
  generalize ht : min (e - f) (max ((m.log2 : Int) + e - (n.log2 + f) - 53) (-1074)) = t
  generalize hw : (e - f - t).toNat = w
  have hwidth : (w : Int) = e - f - t := by omega
  have hlog := log2_shiftLeft hm w
  obtain ⟨hquotient, hlog'⟩ := le_log2_div (m := m <<< w) hn (by omega)
  refine atLeast_roundWithAccuracy hquotient ?_ ?_ ?_ _
  · omega
  · omega
  · omega

theorem atLeast_add {m n : Nat} {e f k : Int} (hm : 0 < m) (hn : 0 < n)
    (hplace : -1074 ≤ m.log2 + e) (hk : k ≤ m.log2 + e) :
    AtLeast k (Float.Model.pack (add Format.binary64 (.finite .positive m e hm)
      (.finite .positive n f hn))).unpack := by
  unfold add decreaseExponent
  dsimp only
  generalize hw : (e - min e f).toNat = w
  have hwidth : (w : Int) = e - min e f := by omega
  have hpos := shiftLeft_pos hm w
  have hsum : Sign.positive.apply (m <<< w) + Sign.positive.apply (n <<< (f - min e f).toNat) =
      ((m <<< w + n <<< (f - min e f).toNat : Nat) : Int) := rfl
  rw [hsum]
  generalize hr : n <<< (f - min e f).toNat = r
  have hlog := log2_le_log2 hpos (Nat.le_add_right (m <<< w) r)
  rw [log2_shiftLeft hm] at hlog
  exact atLeast_normalize (by omega) (by omega) (by omega)

/-! ## whole numbers and periods -/

theorem atLeast_toFloat {n : UInt64} (hn : 0 < n.toNat) : AtLeast 0 n.toFloat.toModel.unpack :=
  atLeast_normalize hn (by omega) (by omega)

theorem one_unpack : (Float.ofBits 0x3FF0000000000000).toModel.unpack =
    .finite .positive (2 ^ 52) (-52) (Nat.two_pow_pos 52) := rfl

theorem atLeast_ofNat {n : Nat} (hn : 0 < n) : AtLeast 0 (Float.ofNat n).toModel.unpack := by
  show AtLeast 0 (Float.ofScientific n false 0).toModel.unpack
  unfold Float.ofScientific
  split
  case isTrue h =>
    have hwhole : n.toUInt64.toNat = n := by
      show n % 2 ^ 64 = n
      omega
    have hfactor := atLeast_toFloat (n := n.toUInt64) (by omega)
    show AtLeast 0 (Float.Model.pack (mul Format.binary64 n.toUInt64.toFloat.toModel.unpack
      (Float.ofBits 0x3FF0000000000000).toModel.unpack)).unpack
    rw [one_unpack]
    obtain h | ⟨m, e, hm, h, hplace⟩ := atLeast_iff.mp hfactor
    · rw [h]
      exact True.intro
    · rw [h]
      have hone : (2 ^ 52 : Nat).log2 = 52 := Nat.log2_two_pow
      exact atLeast_mul hm _ (.inr hone.ge) (by omega) (by omega)
  case isFalse =>
    show AtLeast 0 (Float.Model.pack (UnpackedFloat.ofScientific Format.binary64 n 0)).unpack
    have hexponent : ¬ (0 : Int) < -((2 ^ 11 : Int) + n.log2) := by omega
    unfold UnpackedFloat.ofScientific
    rw [dif_neg hn.ne', if_neg (by decide), if_neg hexponent, if_pos le_rfl]
    have hlog : (n <<< 53).log2 = n.log2 + 53 := log2_shiftLeft hn 53
    have hbits : -((Format.binary64.mantissaBits : Nat) : Int) = -53 := rfl
    have hone : (10 ^ (0 : Int).toNat).log2 = 0 := by decide
    refine atLeast_mul _ _ (.inl ?_) ?_ ?_
    · show 52 ≤ (n <<< 53).log2
      omega
    · show -1074 ≤ ((n <<< 53).log2 : Int) + -53 + _
      omega
    · show 0 ≤ ((n <<< 53).log2 : Int) + -53 + _
      omega

theorem zero_unpack : (Float.ofNat 0).toModel.unpack = .zero .positive := rfl

theorem nanosPerSecond_unpack : (Float.ofNat Period.nanosPerSecond).toModel.unpack =
    .finite .positive 8388608000000000 (-23) (by decide) := rfl

theorem atLeast_restSeconds {r : Nat} (hr : 0 < r) :
    AtLeast (-31) (Float.ofNat r / Float.ofNat Period.nanosPerSecond).toModel.unpack := by
  have h := atLeast_ofNat hr
  show AtLeast (-31) (Float.Model.pack (div Format.binary64 (Float.ofNat r).toModel.unpack
    (Float.ofNat Period.nanosPerSecond).toModel.unpack)).unpack
  rw [nanosPerSecond_unpack]
  obtain h | ⟨m, e, hm, h, hplace⟩ := atLeast_iff.mp h
  · rw [h]
    exact True.intro
  · rw [h]
    have hlog : (8388608000000000 : Nat).log2 = 52 := by decide
    exact atLeast_div hm _ (by omega) (by omega)

theorem unpack_pack_unpack (x : Float) :
    (Float.Model.pack x.toModel.unpack).unpack = x.toModel.unpack := by
  show unpack Format.binary64 (pack Format.binary64 (unpack Format.binary64 _)) = _
  rw [pack_unpack_of_valid x.toModel.valid]
  rfl

theorem pos_of_zero_add {x y : Float} {k : Int} (hx : x.toModel.unpack = .zero .positive)
    (hy : AtLeast k y.toModel.unpack) : (0.0 : Float) < x + y := by
  refine pos_of_atLeast (k := k) ?_
  show AtLeast k (Float.Model.pack (add Format.binary64 x.toModel.unpack y.toModel.unpack)).unpack
  have hadd : add Format.binary64 (.zero .positive) y.toModel.unpack = y.toModel.unpack := by
    obtain h | ⟨m, e, hm, h, -⟩ := atLeast_iff.mp hy
    · rw [h]
      rfl
    · rw [h]
      rfl
  rw [hx, hadd, unpack_pack_unpack]
  exact hy

theorem pos_of_one_add {x y : Float} {k : Int} (hx : AtLeast 0 x.toModel.unpack)
    (hy : y.toModel.unpack = .zero .positive ∨ AtLeast k y.toModel.unpack) :
    (0.0 : Float) < x + y := by
  refine pos_of_atLeast (k := 0) ?_
  have hkept := unpack_pack_unpack x
  rw [atLeast_iff (f := y.toModel.unpack)] at hy
  show AtLeast 0 (Float.Model.pack (add Format.binary64 x.toModel.unpack y.toModel.unpack)).unpack
  have hinfinite : AtLeast 0 (Float.Model.pack (.infinity .positive)).unpack := True.intro
  obtain h | ⟨m, e, hm, h, hplace⟩ := atLeast_iff.mp hx
  · rw [h]
    obtain hy | hy | ⟨n, f, hn, hy, -⟩ := hy <;> rw [hy] <;> exact hinfinite
  · rw [h] at hkept ⊢
    obtain hy | hy | ⟨n, f, hn, hy, -⟩ := hy
    · rw [hy]
      show AtLeast 0 (Float.Model.pack (.finite .positive m e hm)).unpack
      rw [hkept]
      exact hplace
    · rw [hy]
      exact hinfinite
    · rw [hy]
      exact atLeast_add hm hn (by omega) hplace

/-- **A period that is not zero lasts longer than zero seconds.** -/
theorem seconds_pos {p : Period} (hp : p.isZero = false) : (0 : Float) < p.seconds := by
  have hnanos : p.nanos ≠ 0 := beq_eq_false_iff_ne.mp hp
  have hparts : Period.nanosPerSecond * p.wholeSeconds + p.restNanos = p.nanos :=
    Nat.div_add_mod p.nanos Period.nanosPerSecond
  show (0.0 : Float) < Float.ofNat p.wholeSeconds +
    Float.ofNat p.restNanos / Float.ofNat Period.nanosPerSecond
  obtain hrest | hrest := Nat.eq_zero_or_pos p.restNanos
  · have hwhole : 0 < p.wholeSeconds := by
      refine Nat.pos_of_ne_zero fun h => hnanos ?_
      rw [← hparts, h, hrest]
      rfl
    rw [hrest]
    exact pos_of_one_add (k := 0) (atLeast_ofNat hwhole) (.inl rfl)
  · obtain hwhole | hwhole := Nat.eq_zero_or_pos p.wholeSeconds
    · rw [hwhole]
      exact pos_of_zero_add zero_unpack (atLeast_restSeconds hrest)
    · exact pos_of_one_add (atLeast_ofNat hwhole) (.inr (atLeast_restSeconds hrest))

end ArmServo.Binary64
