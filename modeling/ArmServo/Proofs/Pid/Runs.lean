import ArmServo.Proofs.Pid.Memory

/-!
# Runs of the loops

Whatever is done with the six loops one thing after the other, with the answers on the way. The
gains in force are those that were put in force last.

Main statements: `Spatial.update?_eq_some_iff`, `Spatial.gains_of_run?`.
-/

namespace ArmServo.Pid

variable {α : Type}

/-! ## one update -/

section Update

variable [Scalar α]

/-- The sum of the three terms. -/
def Gains.output (g : Gains α) (error integral lastError dt : α) : α :=
  g.p * error + g.i * integral + g.d * ((error - lastError) / dt)

/-- The integral after an update, within its bound. The last error has no part in it. -/
def Loop.integrated? (s : Loop α) (error dt : α) : Option α :=
  clampBetween? (-Scalar.abs s.gains.iClamp) (Scalar.abs s.gains.iClamp) (s.integral + error * dt)

theorem Loop.update?_eq (s : Loop α) (error dt : α) :
    s.update? error dt = (s.integrated? error dt).map fun integral =>
      (s.gains.output error integral s.lastError dt, ⟨s.gains, integral, error⟩) := by
  unfold update? integrated?
  dsimp only
  cases clampBetween? (-Scalar.abs s.gains.iClamp) (Scalar.abs s.gains.iClamp)
    (s.integral + error * dt) <;> rfl

theorem Loop.update?_eq_some_iff {s t : Loop α} {error dt output : α} :
    s.update? error dt = some (output, t) ↔
      s.integrated? error dt = some t.integral ∧ t.gains = s.gains ∧ t.lastError = error ∧
        output = s.gains.output error t.integral s.lastError dt := by
  rw [update?_eq, Option.map_eq_some_iff]
  constructor
  · rintro ⟨integral, hi, hst⟩
    cases hst
    exact ⟨hi, rfl, rfl, rfl⟩
  · rintro ⟨hi, hgains, hlast, houtput⟩
    refine ⟨t.integral, hi, ?_⟩
    rw [houtput, ← hgains, ← hlast]

namespace Spatial

variable [TellsTime α]

theorem update?_of_isZero (s : Spatial α) (error : Axes α) {period : Period}
    (hp : period.isZero = true) : s.update? error period = some (.zero, s) := by
  unfold update?
  dsimp only
  rw [if_pos ((TellsTime.seconds_le_zero_iff period).mpr hp)]

/-- **Every axis is updated by itself.** -/
theorem update?_eq_some_iff {s t : Spatial α} {error output : Axes α} {period : Period}
    (hp : period.isZero = false) : s.update? error period = some (output, t) ↔
      ∀ k, (s.loop k).integrated? (error.get k) period.seconds = some (t.loop k).integral ∧
        (t.loop k).gains = (s.loop k).gains ∧ (t.loop k).lastError = error.get k ∧
        output.get k = (s.loop k).gains.output (error.get k) (t.loop k).integral
          (s.loop k).lastError period.seconds := by
  simp only [update?_eq_some_iff_forall hp, Loop.update?_eq_some_iff]

omit [Scalar α] [TellsTime α] in
/-- Real loops always have an output: the bound of an integral is one on both sides. -/
theorem exists_update? (s : Spatial ℝ) (error : Axes ℝ) {period : Period}
    (hp : period.isZero = false) : ∃ x, s.update? error period = some x := by
  rw [← Option.ne_none_iff_exists', ne_eq, update?_eq_none_iff hp]
  rintro ⟨k, hk⟩
  rw [Loop.update?_eq, Option.map_eq_none_iff] at hk
  have hbound : -Scalar.abs (s.loop k).gains.iClamp ≤
      Scalar.abs (s.loop k).gains.iClamp := neg_le_self (abs_nonneg _)
  unfold Loop.integrated? clampBetween? at hk
  rw [if_pos hbound] at hk
  cases hk

end Spatial

end Update

/-! ## requests -/

/-- What can be asked of the loops. -/
inductive Request (α : Type) where
  | update (error : Axes α) (period : Period)
  | reset
  | timeJump
  | setGains (gains : SpatialGains α)

/-- The gains in force after some requests. -/
def inForce (g : SpatialGains α) : List (Request α) → SpatialGains α
  | [] => g
  | .setGains g' :: rest => inForce g' rest
  | _ :: rest => inForce g rest

theorem inForce_cons (g : SpatialGains α) (r : Request α) (rest : List (Request α)) :
    inForce g (r :: rest) = inForce (inForce g [r]) rest := by
  cases r <;> rfl

namespace Spatial

variable [Scalar α]

/-- The output, if an update is asked for, and the loops after a request; none if there is no
output. -/
def perform? (s : Spatial α) : Request α → Option (Option (Axes α) × Spatial α)
  | .update error period => (s.update? error period).map (Prod.map some id)
  | .reset => some (none, s.reset)
  | .timeJump => some (none, s.timeJump)
  | .setGains g => some (none, s.setGains g)

theorem perform?_update (s : Spatial α) (error : Axes α) (period : Period) :
    s.perform? (.update error period) = (s.update? error period).map (Prod.map some id) := rfl

/-- The answers to all requests, and the loops after them. -/
def run? (s : Spatial α) : List (Request α) → Option (List (Option (Axes α)) × Spatial α)
  | [] => some ([], s)
  | r :: rest =>
    match s.perform? r with
    | none => none
    | some (answer, t) => (t.run? rest).map (Prod.map (answer :: ·) id)

variable [TellsTime α]

theorem gains_of_perform? {s t : Spatial α} {r : Request α} {answer : Option (Axes α)}
    (h : s.perform? r = some (answer, t)) : t.gains = inForce s.gains [r] := by
  cases r with
  | update error period =>
    obtain ⟨⟨output, u⟩, hu, hut⟩ := Option.map_eq_some_iff.mp h
    cases hut
    cases hp : period.isZero with
    | true =>
      rw [update?_of_isZero s error hp] at hu
      cases hu
      rfl
    | false =>
      exact gains_of_update? hp hu
  | reset =>
    cases h
    exact gains_reset s
  | timeJump =>
    cases h
    exact gains_timeJump s
  | setGains g =>
    cases h
    exact gains_setGains s g

/-- **The gains are those put in force last.** -/
theorem gains_of_run? {s t : Spatial α} {rs : List (Request α)}
    {answers : List (Option (Axes α))} (h : s.run? rs = some (answers, t)) :
    t.gains = inForce s.gains rs := by
  induction rs generalizing s answers with
  | nil =>
    cases h
    rfl
  | cons r rest ih =>
    unfold run? at h
    cases hr : s.perform? r with
    | none =>
      rw [hr] at h
      cases h
    | some x =>
      rw [hr] at h
      obtain ⟨⟨later, u⟩, hu, hut⟩ := Option.map_eq_some_iff.mp h
      cases hut
      rw [inForce_cons, ← gains_of_perform? hr]
      exact ih hu

end Spatial

end ArmServo.Pid
