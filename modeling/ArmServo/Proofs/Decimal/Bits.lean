import Mathlib
import ArmServo.Decimal.Ratio

/-!
# The bits of a double

A double that is a number is put together from its sign, its exponent field and its fraction, and
its negative from the other sign and the same two. What its bits stand for can be read off these
three parts.

Main statements: `exact_cases`, `ofBits_word`.
-/

namespace ArmServo.Binary64

open Float.Model (UnpackedFloat Format)
open Float.Model.UnpackedFloat

/-! ## parts of a word -/

/-- The bits with the given sign, exponent field and fraction. -/
abbrev word (s : Sign) (e : BitVec 11) (f : BitVec 52) : BitVec 64 :=
  packComponents Format.binary64 s e f

/-- The parts stand for a number, infinite ones included. -/
def IsNumber (e : BitVec 11) (f : BitVec 52) : Prop := e = -1#11 → f = 0#52

theorem toNat_word (s : Sign) (e : BitVec 11) (f : BitVec 52) :
    (word s e f).toNat = s.toBitVec.toNat * 2 ^ 63 + e.toNat * 2 ^ 52 + f.toNat := by
  have he := e.isLt
  have hf := f.isLt
  unfold word packComponents
  rw [BitVec.toNat_append, BitVec.toNat_append, ← Nat.shiftLeft_add_eq_or_of_lt hf,
    ← Nat.shiftLeft_add_eq_or_of_lt he, Nat.shiftLeft_eq, Nat.shiftLeft_eq]
  ring

/-- Every word has these parts. -/
theorem exists_word (b : BitVec 64) : ∃ s e f, b = word s e f :=
  ⟨_, _, _, (@packComponents_unpackSign_unpackExponent_unpackMantissa Format.binary64 b).symm⟩

/-! ## packing and unpacking -/

theorem toNat_one_append (f : BitVec 52) : (1#1 ++ f).toNat = 2 ^ 52 + f.toNat := by
  rw [BitVec.toNat_append, ← Nat.shiftLeft_add_eq_or_of_lt f.isLt]
  rfl

theorem unpack_word (s : Sign) (e : BitVec 11) (f : BitVec 52) :
    unpack Format.binary64 (word s e f) =
      if e = -1#11 then if f = 0#52 then .infinity s else .notANumber
      else if e = 0#11 then
        if h : f = 0#52 then .zero s
        else .finite s f.toNat (-1074) (by simpa [BitVec.toNat_pos, BitVec.pos_iff_ne_zero])
      else .finite s (2 ^ 52 + f.toNat) (e.toNat - 1075) (by omega) := by
  simp only [unpack, unpackMantissa_packComponents, unpackExponent_packComponents,
    unpackSign_packComponents, Sign.ofBitVec_toBitVec]
  have hbias : ((Format.binary64.exponentBias : Nat) : Int) = 1023 := rfl
  split
  · rfl
  split
  · next he =>
    split
    · rfl
    · simp [he, hbias]
  · simp only [toNat_one_append, hbias]
    rfl

theorem neg_unpack_word (s : Sign) (e : BitVec 11) (f : BitVec 52) :
    (unpack Format.binary64 (word s e f)).neg = unpack Format.binary64 (word (-s) e f) := by
  rw [unpack_word, unpack_word]
  split
  · split <;> rfl
  · split
    · split <;> rfl
    · rfl

theorem pack_subnormal {s : Sign} {m : Nat} (hm : 0 < m) (hlt : m < 2 ^ 52) :
    pack Format.binary64 (.finite s m (-1074) hm) = word s 0#11 (.ofNat 52 m) := by
  have hlog : ¬ m.log2 + 1 = Format.binary64.mantissaBits := by
    have h : m.log2 < 52 := (Nat.log2_lt hm.ne').mpr hlt
    show ¬ m.log2 + 1 = 53
    omega
  unfold pack
  dsimp only
  rw [if_neg (by decide), if_neg hlog]

theorem pack_normal {s : Sign} {m e : Nat} (hm : 0 < m) (hlow : 2 ^ 52 ≤ m) (hlt : m < 2 ^ 53)
    (he : e < 2047) :
    pack Format.binary64 (.finite s m (e - 1075) hm) = word s (.ofNat 11 e) (.ofNat 52 m) := by
  have hlog : m.log2 + 1 = Format.binary64.mantissaBits := by
    have h : m.log2 = 52 := (Nat.log2_eq_iff hm.ne').mpr ⟨hlow, hlt⟩
    rw [h]
    rfl
  have hbias : ((e : Int) - 1075 + Format.binary64.exponentBias +
      Format.binary64.mantissaBitsWithoutImplicit).toNat = e := by
    show ((e : Int) - 1075 + (1023 : Nat) + (52 : Nat)).toNat = e
    omega
  unfold pack
  dsimp only
  rw [hbias, if_neg (show ¬ 2 ^ 11 ≤ e + 1 by omega), if_pos hlog]

theorem pack_unpack_word (s : Sign) {e : BitVec 11} {f : BitVec 52} (h : IsNumber e f) :
    pack Format.binary64 (unpack Format.binary64 (word s e f)) = word s e f := by
  have hnumber : @isNaNBits Format.binary64 (word s e f) = false := by
    unfold isNaNBits
    rw [unpackExponent_packComponents, unpackMantissa_packComponents]
    exact decide_eq_false fun ⟨he, hf⟩ => hf (h he)
  rw [pack_unpack, hnumber]
  rfl

/-! ## doubles -/

/-- The double with the given sign, exponent field and fraction. -/
def ofParts (s : Sign) (e : BitVec 11) (f : BitVec 52) : Float := .ofBits (.ofBitVec (word s e f))

section Parts

variable {s : Sign} {e : BitVec 11} {f : BitVec 52}

theorem toBits_ofParts (h : IsNumber e f) : (ofParts s e f).toBits = .ofBitVec (word s e f) := by
  show UInt64.ofBitVec (pack Format.binary64 (unpack Format.binary64 (word s e f))) = _
  rw [pack_unpack_word s h]

theorem unpack_ofParts (h : IsNumber e f) :
    (ofParts s e f).toModel.unpack = unpack Format.binary64 (word s e f) := by
  show unpack Format.binary64 (ofParts s e f).toBits.toBitVec = _
  rw [toBits_ofParts h]

theorem neg_ofParts (h : IsNumber e f) : -ofParts s e f = ofParts (-s) e f := by
  show Float.ofModel (.pack (ofParts s e f).toModel.unpack.neg) = _
  rw [unpack_ofParts h, neg_unpack_word]
  rfl

theorem isInf_ofParts (h : IsNumber e f) : (ofParts s e f).isInf = decide (e = -1#11) := by
  show (ofParts s e f).toModel.unpack.isInf = _
  rw [unpack_ofParts h, unpack_word]
  by_cases he : e = -1#11
  · rw [if_pos he, if_pos (h he), he]
    rfl
  · rw [if_neg he, decide_eq_false he]
    split
    · split <;> rfl
    · rfl

theorem exists_ofParts {x : Float} (hx : x.isNaN = false) :
    ∃ s e f, IsNumber e f ∧ x = ofParts s e f := by
  obtain ⟨s, e, f, hword⟩ := exists_word x.toBits.toBitVec
  have hnumber : IsNumber e f := by
    intro he
    change (unpack Format.binary64 x.toBits.toBitVec).isNaN = false at hx
    rw [hword, unpack_word, if_pos he] at hx
    by_contra hf
    rw [if_neg hf] at hx
    cases hx
  refine ⟨s, e, f, hnumber, Float.toBits_inj.mp ?_⟩
  rw [toBits_ofParts hnumber, ← hword]

end Parts

/-! ## what the bits stand for -/

theorem ofBits_word {s : Nat} (hs : s ≤ 1) {e f : Nat} (he : e < 2048) (hf : f < 2 ^ 52) :
    Exact.ofBits (s * 2 ^ 63 + e * 2 ^ 52 + f) =
      if e = 2047 then if f = 0 then .infinite (decide (s = 1)) else .undefined
      else if e = 0 then .finite (decide (s = 1)) f Exact.minimalExponent
      else .finite (decide (s = 1)) (Exact.fieldUnit + f) (Exact.minimalExponent + (e - 1 : Nat)) := by
  have hsign : Exact.signUnit = 2 ^ 63 := by decide
  have hfield : Exact.fieldUnit = 2 ^ 52 := by decide
  have hexponent : (s * 2 ^ 63 + e * 2 ^ 52 + f) % Exact.signUnit / Exact.fieldUnit = e := by
    rw [hsign, hfield]
    omega
  have hfraction : (s * 2 ^ 63 + e * 2 ^ 52 + f) % Exact.fieldUnit = f := by
    rw [hfield]
    omega
  have hnegative : decide (Exact.signUnit ≤ s * 2 ^ 63 + e * 2 ^ 52 + f) = decide (s = 1) := by
    rw [hsign]
    exact decide_eq_decide.mpr (by omega)
  unfold Exact.ofBits
  rw [hexponent, hfraction, hnegative]

/-- The significand and the exponent of bits that have no sign and are not infinite: the bits are the
significand, with the exponent field above it where the significand is full. -/
theorem ofBits_eq_finite {bits m : Nat} {e : Int} (hbits : bits < Exact.infinityBits)
    (h : Exact.ofBits bits = .finite false m e) :
    m = bits ∧ m < 2 ^ 52 ∧ e = -1074 ∨
      ∃ k : Nat, k < 2046 ∧ bits = k * 2 ^ 52 + m ∧ 2 ^ 52 ≤ m ∧ m < 2 ^ 53 ∧ e = -1074 + k := by
  have hinfinity : Exact.infinityBits = 2047 * 2 ^ 52 := by decide
  have hunit : Exact.fieldUnit = 2 ^ 52 := by decide
  have hmin : Exact.minimalExponent = -1074 := rfl
  have hfraction : bits % 2 ^ 52 < 2 ^ 52 := Nat.mod_lt _ (Nat.two_pow_pos 52)
  have hparts := ofBits_word (Nat.zero_le 1) (e := bits / 2 ^ 52) (by omega) hfraction
  rw [Nat.zero_mul, Nat.zero_add, Nat.div_add_mod', h, if_neg (by omega)] at hparts
  split at hparts
  · cases hparts
    exact .inl ⟨by omega, hfraction, hmin⟩
  · cases hparts
    exact .inr ⟨bits / 2 ^ 52 - 1, by omega, by omega, by omega, by omega, by rw [hmin]⟩

theorem ofFloat_ofParts {s : Sign} {e : BitVec 11} {f : BitVec 52} (h : IsNumber e f) :
    Exact.ofFloat (ofParts s e f) =
      Exact.ofBits (s.toBitVec.toNat * 2 ^ 63 + e.toNat * 2 ^ 52 + f.toNat) := by
  unfold Exact.ofFloat
  rw [toBits_ofParts h, ← toNat_word]
  rfl

theorem ofParts_eq {s : Sign} {e : BitVec 11} {f : BitVec 52} (h : IsNumber e f) :
    ofParts s e f = if s.toBitVec.toNat = 1 then -ofParts .positive e f
      else ofParts .positive e f := by
  cases s with
  | positive => rfl
  | negative =>
    rw [if_pos (by decide), neg_ofParts h]
    rfl

theorem ofParts_positive (e : BitVec 11) (f : BitVec 52) :
    ofParts .positive e f = Float.ofBits (UInt64.ofNat (e.toNat * 2 ^ 52 + f.toNat)) := by
  have he := e.isLt
  have hf := f.isLt
  unfold ofParts
  congr 1
  apply UInt64.toNat_inj.mp
  rw [UInt64.toNat_ofBitVec, toNat_word, UInt64.toNat_ofNat']
  show 0 * 2 ^ 63 + _ + _ = _
  omega

/-- **A number is infinite, or it has the bits of its magnitude**, with or without a minus. -/
theorem exact_cases {x : Float} (hx : x.isNaN = false) :
    (∃ negative, Exact.ofFloat x = .infinite negative ∧
      x = if negative then -Exact.infinity else Exact.infinity) ∨
    ∃ negative m e bits, Exact.ofFloat x = .finite negative m e ∧
      bits < Exact.infinityBits ∧ Exact.ofBits bits = .finite false m e ∧
      (Float.ofBits (UInt64.ofNat bits)).isInf = false ∧
      x = if negative then -Float.ofBits (UInt64.ofNat bits) else Float.ofBits (UInt64.ofNat bits) := by
  obtain ⟨s, e, f, hnumber, rfl⟩ := exists_ofParts hx
  have hs : s.toBitVec.toNat ≤ 1 := by cases s <;> decide
  have he := e.isLt
  have hf := f.isLt
  have hexact := ofBits_word hs he hf
  have hmagnitude := ofBits_word (Nat.zero_le 1) he hf
  rw [Nat.zero_mul, Nat.zero_add] at hmagnitude
  rw [ofFloat_ofParts hnumber, ofParts_eq hnumber]
  by_cases hinf : e = -1#11
  · rw [hinf, hnumber hinf] at hexact ⊢
    refine .inl ⟨decide (s.toBitVec.toNat = 1), hexact, ?_⟩
    simp only [decide_eq_true_eq]
    rfl
  · have hexponent : e.toNat ≠ 2047 := fun h => hinf (BitVec.eq_of_toNat_eq h)
    have hinfinity : Exact.infinityBits = 2047 * 2 ^ 52 := by decide
    rw [if_neg hexponent] at hexact hmagnitude
    have hfinite : ∃ m k, ∀ negative, (if e.toNat = 0 then
        Exact.finite negative f.toNat Exact.minimalExponent else .finite negative
          (Exact.fieldUnit + f.toNat) (Exact.minimalExponent + (e.toNat - 1 : Nat))) =
            .finite negative m k := by
      split
      · exact ⟨_, _, fun _ => rfl⟩
      · exact ⟨_, _, fun _ => rfl⟩
    obtain ⟨m, k, hmk⟩ := hfinite
    rw [hmk] at hexact hmagnitude
    refine .inr ⟨_, m, k, e.toNat * 2 ^ 52 + f.toNat, hexact, by omega, hmagnitude, ?_, ?_⟩
    · rw [← ofParts_positive, isInf_ofParts hnumber, decide_eq_false hinf]
    · rw [← ofParts_positive]
      simp only [decide_eq_true_eq]

end ArmServo.Binary64
