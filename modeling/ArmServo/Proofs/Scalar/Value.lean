import Mathlib
import ArmServo.Proofs.Decimal.Nearest
import ArmServo.Proofs.Scalar.Bounds

/-!
# What a double stands for

A finite double stands for a rational number, and the order of doubles is that of these numbers. A
quotient of doubles above zero may be too small for a double or too large, but it is a number, and it
is not below zero.

Main statements: `value_le_of_le`, `exact_div_of_pos`.
-/

namespace ArmServo

namespace Binary64

open Float.Model (UnpackedFloat Format)
open Float.Model.UnpackedFloat

/-! ## unpacked doubles -/

/-- Whether there is a minus. -/
def isMinus (s : Sign) : Bool := decide (s.toBitVec.toNat = 1)

/-- What an unpacked double stands for. -/
def exactOf : UnpackedFloat → Exact
  | .notANumber => .undefined
  | .infinity s => .infinite (isMinus s)
  | .zero s => .finite (isMinus s) 0 Exact.minimalExponent
  | .finite s m e _ => .finite (isMinus s) m e

/-- **Both ways to take a double apart agree.** -/
theorem ofFloat_eq_exactOf (x : Float) : Exact.ofFloat x = exactOf x.toModel.unpack := by
  obtain ⟨s, e, f, hword⟩ := exists_word x.toBits.toBitVec
  have he := e.isLt
  have hf := f.isLt
  have hsign : s.toBitVec.toNat ≤ 1 := by cases s <;> decide
  have hexact : Exact.ofFloat x = Exact.ofBits (word s e f).toNat := by
    rw [← hword]
    rfl
  have hall : e.toNat = 2047 ↔ e = -1#11 :=
    ⟨fun h => BitVec.eq_of_toNat_eq h, fun h => by rw [h]; rfl⟩
  have hnone : e.toNat = 0 ↔ e = 0#11 :=
    ⟨fun h => BitVec.eq_of_toNat_eq h, fun h => by rw [h]; rfl⟩
  have hempty : f.toNat = 0 ↔ f = 0#52 :=
    ⟨fun h => BitVec.eq_of_toNat_eq h, fun h => by rw [h]; rfl⟩
  show Exact.ofFloat x = exactOf (unpack Format.binary64 x.toBits.toBitVec)
  rw [hexact, toNat_word, ofBits_word hsign he hf, hword, unpack_word]
  simp only [hall, hnone, hempty]
  split_ifs with h₁ h₂ h₃ h₄
  · rfl
  · rfl
  · rw [hempty.mpr h₄]
    rfl
  · rfl
  · have hpos := Nat.pos_of_ne_zero (mt hnone.mp h₃)
    have hexponent : Exact.minimalExponent + ((e.toNat - 1 : Nat) : Int) = e.toNat - 1075 := by
      rw [Exact.minimalExponent]
      omega
    rw [show Exact.fieldUnit = 2 ^ 52 by decide, hexponent]
    rfl

/-! ## values -/

/-- What a double stands for, if it is finite. -/
def value? (x : Float) : Option ℚ := (Exact.ofFloat x).value?

theorem value?_eq_some {x : Float} {q : ℚ} (h : value? x = some q) :
    (∃ s, x.toModel.unpack = .zero s ∧ q = 0) ∨
      (∃ m e hm, x.toModel.unpack = .finite .positive m e hm ∧ q = m * 2 ^ e) ∨
      ∃ m e hm, x.toModel.unpack = .finite .negative m e hm ∧ q = -(m * 2 ^ e) := by
  unfold value? at h
  rw [ofFloat_eq_exactOf] at h
  cases hu : x.toModel.unpack with
  | notANumber | infinity =>
    rw [hu] at h
    cases h
  | zero s =>
    rw [hu] at h
    refine .inl ⟨s, rfl, ?_⟩
    cases h
    simp
  | finite s m e hm =>
    rw [hu] at h
    cases h
    cases s with
    | positive => exact .inr (.inl ⟨m, e, hm, rfl, rfl⟩)
    | negative => exact .inr (.inr ⟨m, e, hm, rfl, rfl⟩)

theorem magnitude_pos {m : ℕ} (hm : 0 < m) (e : ℤ) : (0 : ℚ) < m * 2 ^ e := by
  have : (0 : ℚ) < m := by exact_mod_cast hm
  positivity

/-- Canonical numbers above zero are in the order of their exponents first. -/
theorem magnitude_le_magnitude {m n : ℕ} {e f : ℤ} (hx : IsCanonical m e) (hy : IsCanonical n f)
    (h : ((compare e f).then (compare m n)).isLE = true) : (m : ℚ) * 2 ^ e ≤ n * 2 ^ f := by
  rcases lt_trichotomy e f with hlt | rfl | hlt
  · have hfull : 2 ^ 52 ≤ n := by
      have hleast := hx.2.1
      exact hy.2.2.resolve_right (by omega)
    calc (m : ℚ) * 2 ^ e ≤ 2 ^ 53 * 2 ^ e := by
          gcongr
          exact_mod_cast hx.1.le
      _ = 2 ^ 52 * 2 ^ (e + 1) := by
          rw [zpow_add_one₀ two_ne_zero]
          ring
      _ ≤ n * 2 ^ f := by
          gcongr
          · exact_mod_cast hfull
          · norm_num
          · omega
  · rw [Int.compare_eq_eq.mpr rfl] at h
    have hmn : m ≤ n := Nat.isLE_compare.mp h
    gcongr
  · rw [Int.compare_eq_gt.mpr hlt] at h
    cases h

/-- **The order of doubles is that of their values.** -/
theorem value_le_of_le {x y : Float} {q r : ℚ} (hx : value? x = some q) (hy : value? y = some r)
    (h : x ≤ y) : q ≤ r := by
  rw [le_iff] at h
  obtain ⟨s, hu, hq⟩ | ⟨m, e, hm, hu, hq⟩ | ⟨m, e, hm, hu, hq⟩ := value?_eq_some hx <;>
    obtain ⟨t, hv, hr⟩ | ⟨n, f, hn, hv, hr⟩ | ⟨n, f, hn, hv, hr⟩ := value?_eq_some hy <;>
    rw [hu, hv] at h <;> rw [hq, hr]
  case inl.inr.inl => exact (magnitude_pos hn f).le
  case inr.inl.inr.inl =>
    exact magnitude_le_magnitude (isCanonical_unpack hu).1 (isCanonical_unpack hv).1 h
  case inr.inr.inl => exact neg_nonpos.mpr (magnitude_pos hm e).le
  case inr.inr.inr.inl =>
    exact (neg_nonpos.mpr (magnitude_pos hm e).le).trans (magnitude_pos hn f).le
  case inr.inr.inr.inr =>
    change ((compare e f).then (compare m n)).swap.isLE = true at h
    rw [swap_compare_finite] at h
    exact neg_le_neg (magnitude_le_magnitude (isCanonical_unpack hv).1 (isCanonical_unpack hu).1 h)
  -- in all other cases there is a minus on the right side only
  all_goals cases h

/-! ## signs -/

theorem isNaN_of_lt {x y : Float} (h : x < y) : x.isNaN = false ∧ y.isNaN = false := by
  have hs := isSome_compare_toModel x y
  rw [lt_iff.mp h] at hs
  simpa using hs.symm

theorem not_pos_iff {x : Float} : ¬ 0 < x ↔ x.isNaN = true ∨ x ≤ 0 := by
  constructor
  · intro h
    cases hx : x.isNaN with
    | true => exact .inl rfl
    | false => exact .inr (le_of_not_lt rfl hx h)
  · rintro (hx | hx) hpos
    · rw [(isNaN_of_lt hpos).2] at hx
      cases hx
    · exact not_lt_of_le hx hpos

/-- A number, zero and infinity included, with the given sign. -/
def HasSign (s : Sign) : UnpackedFloat → Prop
  | .zero t | .infinity t | .finite t _ _ _ => t = s
  | .notANumber => False

theorem hasSign_unpack_word (s : Sign) {e : BitVec 11} {f : BitVec 52} (h : IsNumber e f) :
    HasSign s (unpack Format.binary64 (word s e f)) := by
  rw [unpack_word]
  split_ifs with h₁ h₂ h₃ h₄
  · rfl
  · exact h₂ (h h₁)
  · rfl
  · rfl
  · rfl

theorem hasSign_pack {s : Sign} {f : UnpackedFloat} (h : HasSign s f) :
    HasSign s (Float.Model.pack f).unpack := by
  cases f with
  | notANumber => exact h
  | zero | infinity =>
    cases h
    cases s <;> rfl
  | finite _ m e hm =>
    cases h
    show HasSign s (unpack Format.binary64 (pack Format.binary64 (.finite s m e hm)))
    unfold pack
    dsimp only
    generalize (e + Format.binary64.exponentBias +
      Format.binary64.mantissaBitsWithoutImplicit).toNat = b
    by_cases hover : 2 ^ Format.binary64.exponentBits ≤ b + 1
    · rw [if_pos hover]
      cases s <;> rfl
    · rw [if_neg hover]
      split
      · refine hasSign_unpack_word s fun hall => ?_
        have hb : b < 2047 := by
          change ¬ 2 ^ 11 ≤ b + 1 at hover
          omega
        have hfield := congrArg BitVec.toNat hall
        change b % 2 ^ 11 = 2047 at hfield
        omega
      · exact hasSign_unpack_word s fun hall => nomatch hall

theorem hasSign_roundWithAccuracy (s : Sign) (m : ℕ) (e : ℤ) (a : Accuracy) :
    HasSign s (roundWithAccuracy Format.binary64 s m e a) := by
  unfold roundWithAccuracy
  dsimp only
  split <;> rfl

/-- A quotient by a finite double that is not zero is a number, unless the dividend is none. -/
theorem hasSign_div {s t : Sign} {a : UnpackedFloat} (ha : HasSign s a) (n : ℕ) (f : ℤ)
    (hn : 0 < n) : HasSign (s / t) (div Format.binary64 a (.finite t n f hn)) := by
  cases a with
  | notANumber => exact ha
  | zero | infinity =>
    cases ha
    rfl
  | finite =>
    cases ha
    exact hasSign_roundWithAccuracy _ _ _ _

theorem exists_hasSign_normalize (m e : ℤ) (t : Sign) :
    ∃ s, HasSign s (UnpackedFloat.normalize Format.binary64 m e t) := by
  unfold UnpackedFloat.normalize
  split
  · exact ⟨_, hasSign_roundWithAccuracy ..⟩
  · exact ⟨t, rfl⟩
  · exact ⟨_, hasSign_roundWithAccuracy ..⟩

theorem isNaN_add {x y : Float} (hx : x.isFinite = true) (hy : y.isNaN = false) :
    (x + y).isNaN = false := by
  change x.toModel.unpack.isFinite = true at hx
  change y.toModel.unpack.isNaN = false at hy
  obtain ⟨s, hs⟩ : ∃ s, HasSign s
      (UnpackedFloat.add Format.binary64 x.toModel.unpack y.toModel.unpack) := by
    generalize x.toModel.unpack = a, y.toModel.unpack = b at hx hy
    cases a with
    | notANumber | infinity => cases hx
    | zero s =>
      cases b with
      | notANumber => cases hy
      | zero t => cases s <;> cases t <;> exact ⟨_, rfl⟩
      | infinity t | finite t => exact ⟨t, rfl⟩
    | finite s =>
      cases b with
      | notANumber => cases hy
      | zero t => exact ⟨s, rfl⟩
      | infinity t => exact ⟨t, rfl⟩
      | finite => exact exists_hasSign_normalize ..
  have hpacked := hasSign_pack hs
  show (Float.Model.pack _).unpack.isNaN = false
  cases hsum : (Float.Model.pack
      (UnpackedFloat.add Format.binary64 x.toModel.unpack y.toModel.unpack)).unpack with
  | notANumber =>
    rw [hsum] at hpacked
    exact hpacked.elim
  | infinity | zero | finite => rfl

theorem hasSign_of_pos {x : Float} (hx : 0 < x) : HasSign .positive x.toModel.unpack := by
  have hzero : (0 : Float).toModel.unpack = .zero .positive := rfl
  rw [lt_iff, hzero] at hx
  cases hu : x.toModel.unpack with
  | notANumber | zero =>
    rw [hu] at hx
    cases hx
  | infinity s | finite s =>
    cases s with
    | positive => rfl
    | negative =>
      rw [hu] at hx
      cases hx

theorem exact_of_hasSign {x : Float} (hx : HasSign .positive x.toModel.unpack) :
    Exact.ofFloat x = .infinite false ∨ ∃ m e, Exact.ofFloat x = .finite false m e := by
  rw [ofFloat_eq_exactOf]
  cases hu : x.toModel.unpack with
  | notANumber =>
    rw [hu] at hx
    exact hx.elim
  | infinity =>
    rw [hu] at hx
    cases hx
    exact .inl rfl
  | zero =>
    rw [hu] at hx
    cases hx
    exact .inr ⟨_, _, rfl⟩
  | finite =>
    rw [hu] at hx
    cases hx
    exact .inr ⟨_, _, rfl⟩

/-- **A quotient of doubles above zero** is a number that is not below zero. -/
theorem exact_div_of_pos {x y : Float} {n : ℕ} {f : ℤ} {hn : 0 < n} (hx : 0 < x)
    (hy : y.toModel.unpack = .finite .positive n f hn) :
    Exact.ofFloat (x / y) = .infinite false ∨ ∃ m e, Exact.ofFloat (x / y) = .finite false m e := by
  refine exact_of_hasSign ?_
  show HasSign .positive
    (Float.Model.pack (div Format.binary64 x.toModel.unpack y.toModel.unpack)).unpack
  rw [hy]
  exact hasSign_pack (hasSign_div (hasSign_of_pos hx) n f hn)

/-! ## differences and quotients that vanish -/

/-- **A finite double is no distance from itself.** -/
theorem sub_self_of_isFinite {x : Float} (hx : x.isFinite = true) : x - x = 0 := by
  have hsub : sub Format.binary64 x.toModel.unpack x.toModel.unpack = .zero .positive := by
    change x.toModel.unpack.isFinite = true at hx
    cases hu : x.toModel.unpack with
    | notANumber | infinity =>
      rw [hu] at hx
      cases hx
    | zero s => cases s <;> rfl
    | finite s m e hm =>
      unfold sub
      dsimp only
      rw [Int.sub_self]
      rfl
  show Float.ofModel (Float.Model.pack (sub Format.binary64 x.toModel.unpack x.toModel.unpack)) = 0
  rw [hsub]
  rfl

theorem zero_div_of_pos {x : Float} (hx : 0 < x) : 0 / x = 0 := by
  have hdiv : div Format.binary64 (.zero .positive) x.toModel.unpack = .zero .positive := by
    have hs := hasSign_of_pos hx
    rw [lt_iff, show (0 : Float).toModel.unpack = .zero .positive from rfl] at hx
    cases hu : x.toModel.unpack with
    | notANumber | zero =>
      rw [hu] at hx
      cases hx
    | infinity s | finite s =>
      rw [hu] at hs
      cases hs
      rfl
  show Float.ofModel (Float.Model.pack (div Format.binary64 (.zero .positive) x.toModel.unpack)) = 0
  rw [hdiv]
  rfl

/-! ## infinities -/

theorem isInf_iff (x : Float) :
    x.isInf = true ↔ ∃ negative, Exact.ofFloat x = .infinite negative := by
  rw [ofFloat_eq_exactOf]
  change x.toModel.unpack.isInf = true ↔ _
  cases x.toModel.unpack with
  | infinity s => exact iff_of_true rfl ⟨_, rfl⟩
  | notANumber | zero | finite => exact iff_of_false Bool.false_ne_true (fun ⟨_, h⟩ => nomatch h)

end Binary64

end ArmServo
