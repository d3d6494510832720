import ArmServo.Proofs.Config.Acceptance
import ArmServo.Proofs.Scalar.Value

/-!
# Periods of a configuration

The period of a configuration is given in milliseconds. Its seconds are one quotient of doubles, and
the period is the number of nanoseconds that is the nearest to the exact value of this quotient, ties
to even. There is none exactly where the milliseconds are not above zero, or where the nearest
number of nanoseconds is zero or `2 ^ 64` seconds and more.

Main statements: `Config.period?_eq_ok_iff_nearest`, `Config.period?_eq_error_iff`.
-/

namespace ArmServo

open Binary64

/-! ## nanoseconds of a double -/

theorem Period.bound_eq : Period.bound = 2 ^ 64 * 10 ^ 9 := by decide

theorem isNearestEven_nanoseconds (m : ℕ) (e : ℤ) :
    IsNearestEven (m * 2 ^ e * 10 ^ 9) ((Ratio.ofBinary m e).timesPowTen 9).round := by
  have hvalue : ((Ratio.ofBinary m e).timesPowTen 9).value = m * 2 ^ e * 10 ^ 9 := by
    rw [← Ratio.value_ofBinary]
    exact Ratio.value_timesPowTen _ 9
  rw [← hvalue]
  exact Ratio.isNearestEven_round _ (Ratio.den_ofBinary_pos m e)

/-- **The nanoseconds of a double** are the nearest to its exact value, if they are below the bound. -/
theorem nearestNanoseconds?_eq_some_iff {x : Float} {m : ℕ} {e : ℤ}
    (hx : Exact.ofFloat x = .finite false m e) {n : ℕ} :
    nearestNanoseconds? x = some n ↔
      IsNearestEven (m * 2 ^ e * 10 ^ 9) n ∧ n < 2 ^ 64 * 10 ^ 9 := by
  have hround := isNearestEven_nanoseconds m e
  unfold nearestNanoseconds?
  rw [hx, ← Period.bound_eq]
  dsimp only
  constructor
  · intro h
    split at h
    case isTrue hbound =>
      cases h
      exact ⟨hround, hbound⟩
    case isFalse => cases h
  · rintro ⟨hn, hbound⟩
    rw [hround.unique hn, if_pos hbound]

namespace Config

/-- The seconds of the period, rounded once. -/
def periodSeconds (c : Config Float) : Float := c.periodMs / Scalar.ofNat 1000

variable {c : Config Float} {p : Period}

theorem exact_periodSeconds (hc : 0 < c.periodMs) :
    Exact.ofFloat c.periodSeconds = .infinite false ∨
      ∃ m e, Exact.ofFloat c.periodSeconds = .finite false m e :=
  exact_div_of_pos hc rfl

/-- **Where there is a period**, and which one it is. -/
theorem period?_eq_ok_iff_nearest : c.period? = .ok p ↔ 0 < c.periodMs ∧
    ∃ q, value? c.periodSeconds = some q ∧ IsNearestEven (q * 10 ^ 9) p.nanos ∧ 0 < p.nanos ∧
      p.nanos < 2 ^ 64 * 10 ^ 9 := by
  rw [period?_eq_ok_iff]
  refine and_congr_right fun hpos => ?_
  change nearestNanoseconds? c.periodSeconds = some p.nanos ∧ 0 < p.nanos ↔ _
  unfold value?
  obtain hinfinite | ⟨m, e, hfinite⟩ := exact_periodSeconds hpos
  · rw [hinfinite]
    refine iff_of_false (fun h => ?_) fun ⟨_, h, _⟩ => nomatch h
    unfold nearestNanoseconds? at h
    rw [hinfinite] at h
    cases h.1
  · rw [nearestNanoseconds?_eq_some_iff hfinite, hfinite]
    constructor
    · rintro ⟨⟨hnear, hbound⟩, hnanos⟩
      exact ⟨_, rfl, hnear, hnanos, hbound⟩
    · rintro ⟨q, hq, hnear, hnanos, hbound⟩
      cases hq
      exact ⟨⟨hnear, hbound⟩, hnanos⟩

theorem eq_of_period?_eq_error {e : ControlError Float} (h : c.period? = .error e) :
    e = .configuration (.invalidPeriod c.periodMs) := by
  unfold period? at h
  split at h
  · split at h
    · cases h
    · exact (Except.error.inj h).symm
  · exact (Except.error.inj h).symm

/-- **Where there is none.** -/
theorem period?_eq_error_iff :
    c.period? = .error (.configuration (.invalidPeriod c.periodMs)) ↔
      c.periodMs.isNaN = true ∨ c.periodMs ≤ 0 ∨ c.periodSeconds.isInf = true ∨
        ∃ q n, value? c.periodSeconds = some q ∧ IsNearestEven (q * 10 ^ 9) n ∧
          (n = 0 ∨ 2 ^ 64 * 10 ^ 9 ≤ n) := by
  constructor
  · intro h
    by_cases hpos : 0 < c.periodMs
    · obtain hinfinite | ⟨m, e, hfinite⟩ := exact_periodSeconds hpos
      · exact .inr (.inr (.inl ((isInf_iff _).mpr ⟨_, hinfinite⟩)))
      · have hvalue : value? c.periodSeconds = some ((m : ℚ) * 2 ^ e) := by
          rw [value?, hfinite]
          rfl
        have hround := isNearestEven_nanoseconds m e
        generalize ((Ratio.ofBinary m e).timesPowTen 9).round = n at hround
        refine .inr (.inr (.inr ⟨_, n, hvalue, hround, ?_⟩))
        by_contra hout
        obtain ⟨hnanos, hbound⟩ : 0 < n ∧ n < 2 ^ 64 * 10 ^ 9 := by omega
        have hok : c.period? = .ok ⟨n⟩ :=
          period?_eq_ok_iff_nearest.mpr ⟨hpos, _, hvalue, hround, hnanos, hbound⟩
        rw [hok] at h
        cases h
    · exact (not_pos_iff.mp hpos).imp_right .inl
  · intro h
    cases hp : c.period? with
    | error e => rw [eq_of_period?_eq_error hp]
    | ok p =>
      obtain ⟨hpos, q, hq, hnear, hnanos, hbound⟩ := period?_eq_ok_iff_nearest.mp hp
      exfalso
      rcases h with hnan | hle | hinf | ⟨r, n, hr, hn, hout⟩
      · exact not_pos_iff.mpr (.inl hnan) hpos
      · exact not_pos_iff.mpr (.inr hle) hpos
      · obtain ⟨_, hinfinite⟩ := (isInf_iff _).mp hinf
        rw [value?, hinfinite] at hq
        cases hq
      · rw [hq] at hr
        cases hr
        obtain rfl := hnear.unique hn
        omega

/-- **The period is monotone** in the exact value of its seconds. -/
theorem nanos_le_nanos {c' : Config Float} {p' : Period} (hp : c.period? = .ok p)
    (hp' : c'.period? = .ok p') {q q' : ℚ} (hq : value? c.periodSeconds = some q)
    (hq' : value? c'.periodSeconds = some q') (h : q ≤ q') : p.nanos ≤ p'.nanos := by
  obtain ⟨-, r, hr, hnear, -, -⟩ := period?_eq_ok_iff_nearest.mp hp
  obtain ⟨-, r', hr', hnear', -, -⟩ := period?_eq_ok_iff_nearest.mp hp'
  cases hq.symm.trans hr
  cases hq'.symm.trans hr'
  exact hnear.le hnear' (mul_le_mul_of_nonneg_right h (by positivity))

end Config

end ArmServo
