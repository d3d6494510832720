import ArmServo.Geometry.Rotation
import ArmServo.Chain.Basic
import ArmServo.Proofs.Scalar.Bounds

/-!
# Finite geometry

Which vectors and rotations of doubles are finite. A vector of finite length is, and it stays so
when it is divided by a length that is not too small. A rotation by roll, pitch and yaw is finite
exactly if its angles are, whatever sine and cosine are, as long as they keep between minus one and
one and are undefined where the angle is not finite.

Main statements: `Vec3.isFinite_divide`, `Rotation.isFinite_ofRollPitchYaw_iff`.
-/

namespace ArmServo

open Binary64

/-! ## vectors -/

structure Vec3.IsFinite (v : Vec3 Float) : Prop where
  x : v.x.isFinite = true
  y : v.y.isFinite = true
  z : v.z.isFinite = true

namespace Vec3

variable {v : Vec3 Float}

/-- The components of a vector of finite length are far from the largest double. -/
theorem below_of_isFinite_norm (h : v.norm.isFinite = true) :
    Below 512 v.x.toModel.unpack ∧ Below 512 v.y.toModel.unpack ∧ Below 512 v.z.toModel.unpack := by
  obtain ⟨hxy, hz⟩ := isFinite_of_add (isFinite_of_sqrt h)
  obtain ⟨hx, hy⟩ := isFinite_of_add hxy
  exact ⟨below_of_isFinite_mul_self hx, below_of_isFinite_mul_self hy,
    below_of_isFinite_mul_self hz⟩

theorem isFinite_of_norm (h : v.norm.isFinite = true) : v.IsFinite := by
  obtain ⟨hx, hy, hz⟩ := below_of_isFinite_norm h
  exact ⟨isFinite_of_below hx, isFinite_of_below hy, isFinite_of_below hz⟩

theorem minimalAxis_unpack : (Chain.minimalAxis : Float).toModel.unpack =
    .finite .positive 4835703278458517 (-82) (by decide) := rfl

/-- **A vector of finite length that is not too short** is finite also when it is divided by its
length. -/
theorem isFinite_divide (h : v.norm.isFinite = true) (hlong : ¬ v.norm < Chain.minimalAxis) :
    (v.divide v.norm).IsFinite := by
  have hle : (Chain.minimalAxis : Float) ≤ v.norm :=
    le_of_not_lt (isNaN_of_isFinite h) rfl hlong
  have hleast : AtLeast (-30) (Chain.minimalAxis : Float).toModel.unpack := by
    rw [minimalAxis_unpack]
    show (-30 : Int) ≤ ((4835703278458517 : Nat).log2 : Int) + -82
    decide
  have hnorm := atLeast_of_le hleast hle
  obtain ⟨hx, hy, hz⟩ := below_of_isFinite_norm h
  exact ⟨isFinite_of_below (below_div hx hnorm (by decide) (by decide)),
    isFinite_of_below (below_div hy hnorm (by decide) (by decide)),
    isFinite_of_below (below_div hz hnorm (by decide) (by decide))⟩

end Vec3

/-! ## rotations -/

/-- What is known of a sine and of a cosine. -/
structure Binary64.IsTrig (f : Float → Float) : Prop where
  bounded : ∀ x, x.isFinite = true → -1.0 ≤ f x ∧ f x ≤ 1.0
  undefined : ∀ x, x.isFinite = false → (f x).isNaN = true

/-- Doubles with other functions for sine and cosine. -/
abbrev Binary64.withTrig (sin cos : Float → Float) : Scalar Float :=
  { (inferInstance : Scalar Float) with sin := sin, cos := cos }

example : withTrig Float.sin Float.cos = (inferInstance : Scalar Float) := rfl

namespace Binary64.IsTrig

variable {f : Float → Float}

theorem below (hf : IsTrig f) {x : Float} (hx : x.isFinite = true) :
    Below 1 (f x).toModel.unpack := by
  obtain ⟨hlower, hupper⟩ := hf.bounded x hx
  refine below_of_between (c := 1.0) ?_ hlower hupper
  show ¬ (1 : Int) ≤ ((2 ^ 52 : Nat).log2 : Int) + -52
  decide

theorem isFinite_of_isFinite (hf : IsTrig f) {x : Float} (h : (f x).isFinite = true) :
    x.isFinite = true := by
  rw [← Bool.not_eq_false]
  intro hx
  have hnan := isNaN_of_isFinite h
  rw [hf.undefined x hx] at hnan
  cases hnan

end Binary64.IsTrig

structure Rotation.IsFinite (r : Rotation Float) : Prop where
  w : r.w.isFinite = true
  x : r.x.isFinite = true
  y : r.y.isFinite = true
  z : r.z.isFinite = true

namespace Rotation

section Terms

variable {a b c a' b' c' : Float}

theorem below_mul_mul (ha : Below 1 a.toModel.unpack) (hb : Below 1 b.toModel.unpack)
    (hc : Below 1 c.toModel.unpack) : Below 5 (a * b * c).toModel.unpack :=
  below_mul (below_mul ha hb (by decide) (by decide)) hc (by decide) (by decide)

variable (ha : Below 1 a.toModel.unpack) (hb : Below 1 b.toModel.unpack)
  (hc : Below 1 c.toModel.unpack) (ha' : Below 1 a'.toModel.unpack)
  (hb' : Below 1 b'.toModel.unpack) (hc' : Below 1 c'.toModel.unpack)

include ha hb hc ha' hb' hc'

theorem isFinite_mul_add_mul : (a * b * c + a' * b' * c').isFinite = true :=
  isFinite_of_below
    (below_add (below_mul_mul ha hb hc) (below_mul_mul ha' hb' hc') (by decide) (by decide))

theorem isFinite_mul_sub_mul : (a * b * c - a' * b' * c').isFinite = true :=
  isFinite_of_below
    (below_sub (below_mul_mul ha hb hc) (below_mul_mul ha' hb' hc') (by decide) (by decide))

end Terms

/-- **A rotation is finite exactly if its angles are.** -/
theorem isFinite_ofRollPitchYaw_iff {sin cos : Float → Float} (hsin : IsTrig sin)
    (hcos : IsTrig cos) (rpy : Vec3 Float) :
    letI := withTrig sin cos
    (ofRollPitchYaw rpy).IsFinite ↔ rpy.IsFinite := by
  constructor
  · intro h
    -- the first term of the first component has the cosines of all three angles
    obtain ⟨hcr, hcp⟩ := isFinite_of_mul (isFinite_of_mul (isFinite_of_add h.w).1).1
    have hcy := (isFinite_of_mul (isFinite_of_add h.w).1).2
    exact ⟨(isFinite_of_mul (hcos.isFinite_of_isFinite hcr)).1,
      (isFinite_of_mul (hcos.isFinite_of_isFinite hcp)).1,
      (isFinite_of_mul (hcos.isFinite_of_isFinite hcy)).1⟩
  · intro h
    have hsr := hsin.below (isFinite_mul_half h.x)
    have hcr := hcos.below (isFinite_mul_half h.x)
    have hsp := hsin.below (isFinite_mul_half h.y)
    have hcp := hcos.below (isFinite_mul_half h.y)
    have hsy := hsin.below (isFinite_mul_half h.z)
    have hcy := hcos.below (isFinite_mul_half h.z)
    constructor
    case w => exact isFinite_mul_add_mul hcr hcp hcy hsr hsp hsy
    case x => exact isFinite_mul_sub_mul hsr hcp hcy hcr hsp hsy
    case y => exact isFinite_mul_add_mul hcr hsp hcy hsr hcp hsy
    case z => exact isFinite_mul_sub_mul hcr hcp hsy hsr hsp hcy

end Rotation

end ArmServo
