import Mathlib
import ArmServo.Proofs.Scalar.Absolute
import ArmServo.Proofs.Scalar.Finite
import ArmServo.Proofs.Scalar.Magnitude

/-!
# How large a double can be

A double with a leading digit below the place `k` is below `2 ^ k` in magnitude, and rounding moves
it up by one place at most. So sums, products and quotients of doubles that are not too large, and
quotients by doubles that are not too small, are finite; and a finite square is that of a double far
from the largest one.

Main statements: `below_mul`, `below_add`, `below_div`, `below_of_isFinite_mul_self`.
-/

namespace ArmServo.Binary64

open Float.Model (UnpackedFloat Format totalExponent)
open Float.Model.UnpackedFloat

/-- The leading digit is below the place `k`. -/
def Below (k : Int) : UnpackedFloat → Prop
  | .zero _ => True
  | .finite _ m e _ => m.log2 + e < k
  | _ => False

theorem below_iff {k : Int} {f : UnpackedFloat} : Below k f ↔
    (∃ s, f = .zero s) ∨ ∃ s m e hm, f = .finite s m e hm ∧ m.log2 + e < k := by
  cases f with
  | zero s => exact iff_of_true True.intro (.inl ⟨s, rfl⟩)
  | finite s m e hm =>
    constructor
    · exact fun h => .inr ⟨s, m, e, hm, rfl, h⟩
    · rintro (⟨_, ⟨⟩⟩ | ⟨_, _, _, _, ⟨⟩, h⟩)
      exact h
  | notANumber | infinity =>
    refine iff_of_false id ?_
    rintro (⟨_, ⟨⟩⟩ | ⟨_, _, _, _, ⟨⟩, _⟩)

theorem below_zero (k : Int) (s : Sign) : Below k (Float.Model.pack (.zero s)).unpack := by
  cases s <;> exact True.intro

theorem Below.mono {j k : Int} {f : UnpackedFloat} (h : Below j f) (hjk : j ≤ k) : Below k f := by
  cases f with
  | zero => exact True.intro
  | finite => exact lt_of_lt_of_le h hjk
  | notANumber | infinity => exact h.elim

theorem isFinite_of_below {x : Float} {k : Int} (h : Below k x.toModel.unpack) :
    x.isFinite = true := by
  show x.toModel.unpack.isFinite = true
  cases hx : x.toModel.unpack with
  | zero | finite => rfl
  | notANumber | infinity =>
    rw [hx] at h
    exact h.elim

theorem isCanonical_unpack {x : Float} {s : Sign} {m : Nat} {e : Int} {hm : 0 < m}
    (hx : x.toModel.unpack = .finite s m e hm) : IsCanonical m e ∧ e < 972 := by
  obtain ⟨t, b, f, hword⟩ := exists_word x.toBits.toBitVec
  change unpack Format.binary64 x.toBits.toBitVec = _ at hx
  have hf := f.isLt
  have hb := b.isLt
  rw [hword, unpack_word] at hx
  split at hx
  · split at hx <;> cases hx
  · split at hx
    · split at hx
      · cases hx
      · cases hx
        exact ⟨⟨by omega, by omega, .inr rfl⟩, by omega⟩
    · rename_i hne hne'
      cases hx
      have hall : b.toNat ≠ 2047 := fun h => hne (BitVec.eq_of_toNat_eq h)
      have hnone : b.toNat ≠ 0 := fun h => hne' (BitVec.eq_of_toNat_eq h)
      exact ⟨⟨by omega, by omega, .inl (by omega)⟩, by omega⟩

theorem below_of_isFinite {x : Float} (hx : x.isFinite = true) : Below 1024 x.toModel.unpack := by
  change x.toModel.unpack.isFinite = true at hx
  cases hu : x.toModel.unpack with
  | notANumber | infinity =>
    rw [hu] at hx
    cases hx
  | zero => exact True.intro
  | finite s m e hm =>
    obtain ⟨⟨hlt, -, -⟩, he⟩ := isCanonical_unpack hu
    have hlog : m.log2 < 53 := (Nat.log2_lt hm.ne').mpr hlt
    show (m.log2 : Int) + e < 1024
    omega

/-! ## rounding -/

/-- What is smaller than any double is rounded to zero or to the smallest one. -/
theorem roundWithAccuracy_of_tiny {m : Nat} {e : Int} (he : e ≤ -1074)
    (hm : m = 0 ∨ m.log2 + e < -1074) (s : Sign) (a : Accuracy) :
    roundWithAccuracy Format.binary64 s m e a = .zero s ∨
      roundWithAccuracy Format.binary64 s m e a = .finite s 1 (-1074) Nat.one_pos := by
  have hwidth : (shiftWidth m e : Int) = -1074 - e := by
    unfold shiftWidth totalExponent
    rcases hm with rfl | hm
    · have hlog : (0 : Nat).log2 = 0 := by decide
      omega
    · omega
  have hgone : m / 2 ^ shiftWidth m e = 0 := by
    refine Nat.div_eq_of_lt ?_
    rcases hm with rfl | hm
    · exact Nat.two_pow_pos _
    · exact Nat.lt_log2_self.trans_le (Nat.pow_le_pow_right Nat.two_pos (by omega))
  obtain ⟨hmantissa, hexponent⟩ := shiftToTargetExponent_eq m e a
  rw [hgone] at hmantissa
  rw [hwidth, show e + (-1074 - e) = -1074 by omega] at hexponent
  have hcarry := roundedMantissa_le (shiftToTargetExponent Format.binary64 m e a).1
  unfold roundWithAccuracy
  dsimp only
  rw [hmantissa] at hcarry
  rw [hexponent]
  have hrounded : (shiftToTargetExponent Format.binary64 m e a).1.roundedMantissa = 0 ∨
      (shiftToTargetExponent Format.binary64 m e a).1.roundedMantissa = 1 := by
    omega
  -- neither of the two is shifted once more
  obtain h | h := hrounded
  · rw [h]
    exact .inl rfl
  · rw [h]
    exact .inr rfl

/-- **Rounding moves the leading digit up by one place at most.** -/
theorem below_roundWithAccuracy {m : Nat} {e k : Int} (hdigits : 52 ≤ m.log2 ∨ e ≤ -1074)
    (hplace : m.log2 + e < k) (hlow : -1074 ≤ k) (hhigh : k < 1024) (s : Sign) (a : Accuracy) :
    Below (k + 1) (Float.Model.pack (roundWithAccuracy Format.binary64 s m e a)).unpack := by
  by_cases htiny : m = 0 ∨ m.log2 + e < -1074
  · have he : e ≤ -1074 := by
      rcases htiny with rfl | h
      · exact hdigits.resolve_left (by decide)
      · omega
    obtain h | h := roundWithAccuracy_of_tiny he htiny s a
    · rw [h]
      exact below_zero _ s
    · rw [h, unpack_pack_of_lt Nat.one_pos ⟨by decide, le_rfl, .inr rfl⟩ (by decide)]
      show ((1 : Nat).log2 : Int) + -1074 < k + 1
      rw [show (1 : Nat).log2 = 0 by decide]
      omega
  · obtain ⟨hm, hlarge⟩ := not_or.mp htiny
    obtain ⟨n, f, hn, hround, hrounded⟩ :=
      exists_roundWithAccuracy (Nat.pos_of_ne_zero hm) (not_lt.mp hlarge) hdigits s a
    have hbelow := hrounded.below
    have hf : f < 972 := by
      obtain ⟨-, -, hfull | rfl⟩ := hrounded.canonical
      · have hlog := (Nat.le_log2 hn.ne').mpr hfull
        omega
      · omega
    rw [hround, unpack_pack_of_lt hn hrounded.canonical hf]
    show (n.log2 : Int) + f < k + 1
    omega

theorem below_round {m : Nat} {e k : Int} (hm : 0 < m) (hplace : m.log2 + e < k) (hlow : -1074 ≤ k)
    (hhigh : k < 1024) (s : Sign) :
    Below (k + 1) (Float.Model.pack (UnpackedFloat.round Format.binary64 s m e)).unpack := by
  unfold UnpackedFloat.round decreaseExponent
  dsimp only
  rw [targetExponent_eq]
  generalize hn : (e - max (totalExponent m e - 53) (-1074)).toNat = n
  have htotal : totalExponent m e = m.log2 + 1 + e := rfl
  refine below_roundWithAccuracy ?_ ?_ hlow hhigh s .exact <;> rw [log2_shiftLeft hm n]
  · omega
  · omega

theorem below_normalize {z : Int} {e k : Int} (hplace : z.natAbs.log2 + e < k) (hlow : -1074 ≤ k)
    (hhigh : k < 1024) (s : Sign) :
    Below (k + 1) (Float.Model.pack (UnpackedFloat.normalize Format.binary64 z e s)).unpack := by
  unfold UnpackedFloat.normalize
  rcases lt_trichotomy z 0 with hz | rfl | hz
  · rw [Int.compare_eq_lt.mpr hz]
    rw [show z.natAbs = (-z).toNat by omega] at hplace
    exact below_round (by omega) hplace hlow hhigh _
  · rw [Int.compare_eq_eq.mpr rfl]
    exact below_zero _ s
  · rw [Int.compare_eq_gt.mpr hz]
    rw [show z.natAbs = z.toNat by omega] at hplace
    exact below_round (by omega) hplace hlow hhigh _

/-! ## arithmetic -/

theorem log2_mul {m n : Nat} (hm : 0 < m) (hn : 0 < n) :
    m.log2 + n.log2 ≤ (m * n).log2 ∧ (m * n).log2 ≤ m.log2 + n.log2 + 1 := by
  have hmn := (Nat.mul_pos hm hn).ne'
  constructor
  · rw [Nat.le_log2 hmn, Nat.pow_add]
    exact Nat.mul_le_mul (Nat.log2_self_le hm.ne') (Nat.log2_self_le hn.ne')
  · refine Nat.le_of_lt_succ ((Nat.log2_lt hmn).mpr ?_)
    calc m * n < 2 ^ (m.log2 + 1) * 2 ^ (n.log2 + 1) :=
          Nat.mul_lt_mul'' Nat.lt_log2_self Nat.lt_log2_self
      _ = 2 ^ (m.log2 + n.log2 + 1 + 1) := by ring

theorem IsCanonical.digits {m : Nat} {e : Int} (h : IsCanonical m e) (hm : 0 < m) :
    52 ≤ m.log2 ∨ e = -1074 := h.2.2.imp_left (Nat.le_log2 hm.ne').mpr

/-- **A product of doubles.** -/
theorem below_mul {x y : Float} {j k : Int} (hx : Below j x.toModel.unpack)
    (hy : Below k y.toModel.unpack) (hlow : -1074 ≤ j + k) (hhigh : j + k < 1024) :
    Below (j + k + 1) (x * y).toModel.unpack := by
  show Below (j + k + 1)
    (Float.Model.pack (mul Format.binary64 x.toModel.unpack y.toModel.unpack)).unpack
  obtain ⟨s, hu⟩ | ⟨s, m, e, hm, hu, hplace⟩ := below_iff.mp hx
  · obtain ⟨t, hv⟩ | ⟨t, n, f, hn, hv, -⟩ := below_iff.mp hy <;> rw [hu, hv] <;>
      exact below_zero _ (s * t)
  · obtain ⟨t, hv⟩ | ⟨t, n, f, hn, hv, hplace'⟩ := below_iff.mp hy
    · rw [hu, hv]
      exact below_zero _ (s * t)
    · obtain ⟨hcanonical, -⟩ := isCanonical_unpack hu
      obtain ⟨hcanonical', -⟩ := isCanonical_unpack hv
      have hdigits := hcanonical.digits hm
      have hdigits' := hcanonical'.digits hn
      obtain ⟨hleast, hmost⟩ := log2_mul hm hn
      rw [hu, hv]
      exact below_roundWithAccuracy (by omega) (by omega) hlow hhigh (s * t) .exact

theorem natAbs_apply (s : Sign) (m : Nat) : (s.apply (m : Int)).natAbs = m := by
  cases s with
  | positive => rfl
  | negative => exact Int.natAbs_neg m

theorem log2_natAbs_add_le {a b : Int} {p : Nat} (ha : a.natAbs < 2 ^ p) (hb : b.natAbs < 2 ^ p) :
    (a + b).natAbs.log2 ≤ p := by
  rcases Nat.eq_zero_or_pos (a + b).natAbs with h | h
  · rw [h]
    exact Nat.zero_le p
  · refine Nat.le_of_lt_succ ((Nat.log2_lt h.ne').mpr ?_)
    have hsum := Int.natAbs_add_le a b
    rw [Nat.pow_succ]
    omega

theorem below_add_finite {s t : Sign} {m n : Nat} (hm : 0 < m) (hn : 0 < n) {e f k : Int}
    (hplace : m.log2 + e < k) (hplace' : n.log2 + f < k) (hlow : -1074 < k) (hhigh : k < 1023) :
    Below (k + 2) (Float.Model.pack
      (add Format.binary64 (.finite s m e hm) (.finite t n f hn))).unpack := by
  obtain ⟨p, hp⟩ : ∃ p : Nat, (p : Int) = k - min e f := ⟨(k - min e f).toNat, by omega⟩
  have haligned {d : Nat} {g : Int} (hd : 0 < d) (hg : min e f ≤ g) (hplace : d.log2 + g < k)
      (u : Sign) : (u.apply ((d <<< (g - min e f).toNat : Nat) : Int)).natAbs < 2 ^ p := by
    rw [natAbs_apply, ← Nat.log2_lt (shiftLeft_pos hd _).ne', log2_shiftLeft hd]
    omega
  have hsum := log2_natAbs_add_le (haligned hm (min_le_left e f) hplace s)
    (haligned hn (min_le_right e f) hplace' t)
  rw [show k + 2 = k + 1 + 1 by omega]
  unfold add decreaseExponent
  dsimp only
  refine below_normalize ?_ (by omega) (by omega) _
  omega

/-- **A sum of doubles.** -/
theorem below_add {x y : Float} {k : Int} (hx : Below k x.toModel.unpack)
    (hy : Below k y.toModel.unpack) (hlow : -1074 < k) (hhigh : k < 1023) :
    Below (k + 2) (x + y).toModel.unpack := by
  have hkeep {z : Float} (hz : Below k z.toModel.unpack) :
      Below (k + 2) (Float.Model.pack z.toModel.unpack).unpack := by
    rw [unpack_pack_unpack]
    exact hz.mono (by omega)
  show Below (k + 2)
    (Float.Model.pack (add Format.binary64 x.toModel.unpack y.toModel.unpack)).unpack
  have hx' := hkeep hx
  have hy' := hkeep hy
  obtain ⟨s, hu⟩ | ⟨s, m, e, hm, hu, hplace⟩ := below_iff.mp hx
  · obtain ⟨t, hv⟩ | ⟨t, n, f, hn, hv, -⟩ := below_iff.mp hy
    · rw [hu, hv]
      cases s <;> cases t <;> exact True.intro
    · rw [hv] at hy'
      rw [hu, hv]
      exact hy'
  · obtain ⟨t, hv⟩ | ⟨t, n, f, hn, hv, hplace'⟩ := below_iff.mp hy
    · rw [hu] at hx'
      rw [hu, hv]
      exact hx'
    · rw [hu, hv]
      exact below_add_finite hm hn hplace hplace' hlow hhigh

theorem below_neg {x : Float} {k : Int} (hx : Below k x.toModel.unpack) :
    Below k (-x).toModel.unpack := by
  rw [unpack_neg (isNaN_of_isFinite (isFinite_of_below hx))]
  cases hu : x.toModel.unpack <;> rw [hu] at hx <;> exact hx

theorem sub_unpacked_eq (a b : UnpackedFloat) :
    sub Format.binary64 a b = add Format.binary64 a b.neg := by
  cases a with
  | finite s m e hm =>
    cases b with
    | finite t n f hn =>
      have hminus : t.apply = fun z => -((-t).apply z) := by
        funext z
        cases t <;> simp [Sign.apply]
      unfold sub add neg
      dsimp only
      rw [hminus, sub_neg_eq_add]
    | _ => rfl
  | notANumber => rfl
  | infinity | zero => cases b <;> rfl

theorem sub_eq_add_neg {x y : Float} (hy : y.isNaN = false) : x - y = x + -y := by
  show Float.ofModel (.pack (sub Format.binary64 x.toModel.unpack y.toModel.unpack)) =
    Float.ofModel (.pack (add Format.binary64 x.toModel.unpack (-y).toModel.unpack))
  rw [sub_unpacked_eq, unpack_neg hy]

/-- **A difference of doubles.** -/
theorem below_sub {x y : Float} {k : Int} (hx : Below k x.toModel.unpack)
    (hy : Below k y.toModel.unpack) (hlow : -1074 < k) (hhigh : k < 1023) :
    Below (k + 2) (x - y).toModel.unpack := by
  rw [sub_eq_add_neg (isNaN_of_isFinite (isFinite_of_below hy))]
  exact below_add hx (below_neg hy) hlow hhigh

theorem log2_div_le {m n : Nat} (hn : 0 < n) (h : 0 < m / n) : (m / n).log2 + n.log2 ≤ m.log2 := by
  have hm : 0 < m := h.trans_le (Nat.div_le_self m n)
  rw [Nat.le_log2 hm.ne', Nat.pow_add]
  calc 2 ^ (m / n).log2 * 2 ^ n.log2 ≤ m / n * n :=
        Nat.mul_le_mul (Nat.log2_self_le h.ne') (Nat.log2_self_le hn.ne')
    _ ≤ m := Nat.div_mul_le_self m n

theorem below_div_finite {s t : Sign} {m n : Nat} (hm : 0 < m) (hn : 0 < n) {e f j k : Int}
    (hplace : m.log2 + e < j) (hplace' : k ≤ n.log2 + f) (hlow : -1074 < j - k)
    (hhigh : j - k < 1024) : Below (j - k + 1) (Float.Model.pack
      (div Format.binary64 (.finite s m e hm) (.finite t n f hn))).unpack := by
  have htotal : totalExponent m e - totalExponent n f = m.log2 + e - (n.log2 + f) := by
    unfold totalExponent
    omega
  unfold div divCore
  dsimp only
  rw [targetExponent_eq, htotal]
  generalize hr : min (e - f) (max ((m.log2 : Int) + e - (n.log2 + f) - 53) (-1074)) = r
  generalize hw : (e - f - r).toNat = w
  have hwidth : (w : Int) = e - f - r := by omega
  have hlog := log2_shiftLeft hm w
  -- only below the smallest double there may be fewer digits than wanted, or none
  have hdigits : 52 ≤ (m <<< w / n).log2 ∨ r ≤ -1074 := by
    by_cases hsmall : r ≤ -1074
    · exact .inr hsmall
    · obtain ⟨-, hleast⟩ := le_log2_div (m := m <<< w) hn (by omega)
      exact .inl (by omega)
  refine below_roundWithAccuracy hdigits ?_ hlow.le hhigh (s / t) _
  rcases Nat.eq_zero_or_pos (m <<< w / n) with hzero | hpos
  · rw [hzero] at hdigits ⊢
    have hlog0 : (0 : Nat).log2 = 0 := by decide
    omega
  · have hmost := log2_div_le hn hpos
    omega

/-- **A quotient by a double that is not too small.** -/
theorem below_div {x y : Float} {j k : Int} (hx : Below j x.toModel.unpack)
    (hy : AtLeast k y.toModel.unpack) (hlow : -1074 < j - k) (hhigh : j - k < 1024) :
    Below (j - k + 1) (x / y).toModel.unpack := by
  show Below (j - k + 1)
    (Float.Model.pack (div Format.binary64 x.toModel.unpack y.toModel.unpack)).unpack
  obtain ⟨s, hu⟩ | ⟨s, m, e, hm, hu, hplace⟩ := below_iff.mp hx
  · have hzero : div Format.binary64 (.zero s) y.toModel.unpack = .zero (s / .positive) := by
      obtain hv | ⟨n, f, hn, hv, -⟩ := atLeast_iff.mp hy <;> rw [hv] <;> rfl
    rw [hu, hzero]
    exact below_zero _ _
  · obtain hv | ⟨n, f, hn, hv, hplace'⟩ := atLeast_iff.mp hy
    · have hzero : div Format.binary64 (.finite s m e hm) (.infinity .positive) =
        .zero (s / .positive) := rfl
      rw [hu, hv, hzero]
      exact below_zero _ _
    · rw [hu, hv]
      exact below_div_finite hm hn hplace hplace' hlow hhigh

theorem isFinite_mul_half {x : Float} (hx : x.isFinite = true) :
    (x * Scalar.half).isFinite = true := by
  have hhalf : (Scalar.half : Float).toModel.unpack =
    .finite .positive (2 ^ 52) (-53) (Nat.two_pow_pos 52) := rfl
  refine isFinite_of_below (k := 1024) ?_
  show Below 1024 (Float.Model.pack
    (mul Format.binary64 x.toModel.unpack (Scalar.half : Float).toModel.unpack)).unpack
  rw [hhalf]
  obtain ⟨s, hu⟩ | ⟨s, m, e, hm, hu, hplace⟩ := below_iff.mp (below_of_isFinite hx)
  · have hzero : mul Format.binary64 (.zero s)
        (.finite .positive (2 ^ 52) (-53) (Nat.two_pow_pos 52)) = .zero (s * .positive) := rfl
    rw [hu, hzero]
    exact below_zero _ _
  · have hlog : (m * 2 ^ 52).log2 = m.log2 + 52 := by
      rw [← Nat.shiftLeft_eq]
      exact log2_shiftLeft hm 52
    obtain ⟨⟨-, hleast, -⟩, -⟩ := isCanonical_unpack hu
    rw [hu, show (1024 : Int) = 1023 + 1 from rfl]
    exact below_roundWithAccuracy (.inl (by omega)) (by omega) (by decide) (by decide) _ .exact

/-! ## backwards -/

theorem below_of_isFinite_mul_self {x : Float} (h : (x * x).isFinite = true) :
    Below 512 x.toModel.unpack := by
  have hx := below_of_isFinite (isFinite_of_mul h).1
  have hsquare : Below 1024 (Float.Model.pack
    (mul Format.binary64 x.toModel.unpack x.toModel.unpack)).unpack := below_of_isFinite h
  obtain ⟨s, hu⟩ | ⟨s, m, e, hm, hu, hplace⟩ := below_iff.mp hx
  · rw [hu]
    exact True.intro
  · rw [hu] at hsquare ⊢
    show (m.log2 : Int) + e < 512
    by_contra hlarge
    obtain ⟨hleast, -⟩ := log2_mul hm hm
    have hdigits := (isCanonical_unpack hu).1.digits hm
    obtain ⟨n, f, hn, hround, hrounded⟩ := exists_roundWithAccuracy (e := e + e)
      (Nat.mul_pos hm hm) (by omega) (by omega) (s * s) .exact
    have hplace' := hrounded.place
    change Below 1024 (Float.Model.pack (roundWithAccuracy Format.binary64 (s * s) (m * m) (e + e)
      .exact)).unpack at hsquare
    rw [hround] at hsquare
    obtain hpack | hpack := unpack_pack hn hrounded.canonical (s * s)
    · rw [hpack] at hsquare
      change (n.log2 : Int) + f < 1024 at hsquare
      omega
    · rw [hpack] at hsquare
      exact hsquare

theorem isFinite_of_sqrt {x : Float} (h : x.sqrt.isFinite = true) : x.isFinite = true := by
  rw [← Bool.not_eq_false] at h ⊢
  intro hx
  change x.toModel.unpack.isFinite = false at hx
  refine h (isFinite_pack ?_)
  cases hu : x.toModel.unpack with
  | notANumber => rfl
  | infinity s => cases s <;> rfl
  | zero | finite =>
    rw [hu] at hx
    cases hx

/-! ## order -/

/-- The order of two canonical numbers above zero is that of their leading digits first. -/
theorem place_le_place {m n : Nat} {e f : Int} (hm : 0 < m) (hx : IsCanonical m e)
    (hy : IsCanonical n f) (hn : 0 < n) (h : ((compare e f).then (compare m n)).isLE = true) :
    m.log2 + e ≤ n.log2 + f := by
  have hlog : m.log2 < 53 := (Nat.log2_lt hm.ne').mpr hx.1
  have hdigits := hy.digits hn
  have hleast := hx.2.1
  rcases lt_trichotomy e f with hlt | rfl | hlt
  · omega
  · rw [Int.compare_eq_eq.mpr rfl] at h
    have hmn : m ≤ n := Nat.isLE_compare.mp h
    have hlog' := log2_le_log2 hm hmn
    omega
  · rw [Int.compare_eq_gt.mpr hlt] at h
    cases h

theorem atLeast_of_le {x y : Float} {k : Int} (hx : AtLeast k x.toModel.unpack) (h : x ≤ y) :
    AtLeast k y.toModel.unpack := by
  rw [le_iff] at h
  obtain hu | ⟨m, e, hm, hu, hplace⟩ := atLeast_iff.mp hx
  · rw [hu] at h
    cases hv : y.toModel.unpack with
    | infinity s =>
      rw [hv] at h
      cases s with
      | positive => exact True.intro
      | negative => cases h
    | notANumber | zero | finite =>
      rw [hv] at h
      cases h
  · rw [hu] at h
    cases hv : y.toModel.unpack with
    | infinity s =>
      rw [hv] at h
      cases s with
      | positive => exact True.intro
      | negative => cases h
    | finite t n f hn =>
      rw [hv] at h
      cases t with
      | positive =>
        exact hplace.trans
          (place_le_place hm (isCanonical_unpack hu).1 (isCanonical_unpack hv).1 hn h)
      | negative => cases h
    | notANumber | zero =>
      rw [hv] at h
      cases h

theorem below_of_between {x c : Float} {k : Int} (hc : ¬ AtLeast k c.toModel.unpack)
    (hlower : -c ≤ x) (hupper : x ≤ c) : Below k x.toModel.unpack := by
  obtain ⟨hx, hc'⟩ := isNaN_of_le hupper
  have hpos : ¬ AtLeast k x.toModel.unpack := fun h => hc (atLeast_of_le h hupper)
  have hneg : ¬ AtLeast k x.toModel.unpack.neg := by
    rw [← unpack_neg hx]
    refine fun h => hc (atLeast_of_le h ?_)
    rw [← neg_neg_of_isNaN hc']
    exact neg_le_neg_of_le hlower
  change x.toModel.unpack.isNaN = false at hx
  cases hu : x.toModel.unpack with
  | notANumber =>
    rw [hu] at hx
    cases hx
  | infinity s =>
    rw [hu] at hpos hneg
    cases s with
    | positive => exact absurd True.intro hpos
    | negative => exact absurd True.intro hneg
  | zero => exact True.intro
  | finite s m e hm =>
    rw [hu] at hpos hneg
    cases s with
    | positive => exact lt_of_not_ge hpos
    | negative => exact lt_of_not_ge hneg

end ArmServo.Binary64
