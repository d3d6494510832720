import Mathlib
import ArmServo.Pid.Spatial
import ArmServo.Proofs.Chain.Limits
import ArmServo.Proofs.Effects
import ArmServo.Proofs.Scalar.Absolute
import ArmServo.Proofs.Scalar.Finite
import ArmServo.Proofs.Scalar.Time

/-!
# What the loops remember

A loop remembers its integral and its last error. It has an output unless the bound of its integral
is not a number. Neither of the two is ever tested, but an output can only be finite if the integral
in it is, whatever the gains are; and then the integral is within its bound.

Main statements: `Loop.update?_eq_none_iff`, `Loop.Updates.isFinite`, `Loop.Updates.isBounded`,
`Spatial.update?_eq_some_iff_forall`, `Spatial.update?_eq_none_iff`.
-/

namespace ArmServo

/-! ## one value per axis -/

namespace Axes

variable {α : Type}

theorem isFinite_iff [Scalar α] {v : Axes α} :
    v.isFinite = true ↔ ∀ k, Scalar.isFinite (v.get k) = true := by
  unfold isFinite
  rw [List.all_eq_true]
  constructor
  · intro h k
    exact h _ (by cases k <;> simp [toList, get])
  · intro h x hx
    simp only [toList, List.mem_cons, List.not_mem_nil, or_false] at hx
    rcases hx with rfl | rfl | rfl | rfl | rfl | rfl
    · exact h .transX
    · exact h .transY
    · exact h .transZ
    · exact h .rotX
    · exact h .rotY
    · exact h .rotZ

theorem isFinite_zero : (zero : Axes Float).isFinite = true := rfl

end Axes

namespace Pid

open Binary64

/-! ## one loop -/

namespace Loop

/-- What the loop remembers is finite. -/
structure IsFinite (s : Loop Float) : Prop where
  integral : s.integral.isFinite = true
  lastError : s.lastError.isFinite = true

/-- The integral is within its bound. -/
def IsBounded (s : Loop Float) : Prop := s.integral.abs ≤ s.gains.iClamp.abs

theorem update?_eq_none_iff (s : Loop Float) (error dt : Float) :
    s.update? error dt = none ↔ s.gains.iClamp.isNaN = true := by
  have hbounds : s.update? error dt = none ↔ ¬ -s.gains.iClamp.abs ≤ s.gains.iClamp.abs := by
    unfold update? clampBetween?
    by_cases h : -s.gains.iClamp.abs ≤ s.gains.iClamp.abs
    · simp [h, Scalar.abs]
    · simp [h, Scalar.abs]
  rw [hbounds, neg_abs_le_abs_iff, Bool.not_eq_false]

theorem gains_of_update? {α : Type} [Scalar α] {s t : Loop α} {error dt output : α}
    (h : s.update? error dt = some (output, t)) : t.gains = s.gains := by
  unfold update? at h
  dsimp only at h
  split at h
  · cases h
  · cases h
    rfl

theorem isNaN_iClamp_of_isFinite {g : Gains Float} (h : g.isFinite = true) :
    g.iClamp.isNaN = false := by
  unfold Gains.isFinite at h
  rw [List.all_eq_true] at h
  exact isNaN_of_isFinite (h g.iClamp (by simp [Gains.toList]))

/-- What a loop with an output has done: the integral has been clamped, and the error is kept. -/
structure Updates (s : Loop Float) (error dt output : Float) (t : Loop Float) : Prop where
  gains : t.gains = s.gains
  lastError : t.lastError = error
  clamped : (Limits.range (-s.gains.iClamp.abs) s.gains.iClamp.abs).clamp?
    (s.integral + error * dt) = some t.integral
  output : output = s.gains.p * error + s.gains.i * t.integral +
    s.gains.d * ((error - s.lastError) / dt)

theorem updates_of_update? {s t : Loop Float} {error dt output : Float}
    (h : s.update? error dt = some (output, t)) : s.Updates error dt output t := by
  unfold update? at h
  dsimp only at h
  split at h
  case h_1 => cases h
  case h_2 integral hclamped =>
    cases h
    exact ⟨rfl, rfl, hclamped, rfl⟩

/-- **A finite output has a finite integral in it**, also with a gain that is zero. -/
theorem Updates.isFinite {s t : Loop Float} {error dt output : Float}
    (h : s.Updates error dt output t) (herror : error.isFinite = true)
    (houtput : output.isFinite = true) : t.IsFinite := by
  rw [h.output] at houtput
  exact ⟨(isFinite_of_mul (isFinite_of_add (isFinite_of_add houtput).1).2).2, h.lastError ▸ herror⟩

theorem Updates.isBounded {s t : Loop Float} {error dt output : Float}
    (h : s.Updates error dt output t) (ht : t.IsFinite) : t.IsBounded := by
  obtain ⟨hlower, hupper⟩ := Limits.admits_of_clamp? h.clamped (isNaN_of_isFinite ht.integral)
  rw [← h.gains] at hlower hupper
  exact abs_le_of_between hlower hupper

theorem isFinite_zero : (0.0 : Float).isFinite = true := rfl

theorem isFinite_ofGains (g : Gains Float) : (ofGains g).IsFinite := ⟨isFinite_zero, isFinite_zero⟩

theorem isFinite_reset (s : Loop Float) : s.reset.IsFinite := ⟨isFinite_zero, isFinite_zero⟩

theorem IsFinite.timeJump {s : Loop Float} (h : s.IsFinite) : s.timeJump.IsFinite :=
  ⟨h.integral, isFinite_zero⟩

theorem IsFinite.setGains {s : Loop Float} (h : s.IsFinite) (g : Gains Float) :
    (s.setGains g).IsFinite := ⟨h.integral, h.lastError⟩

theorem IsBounded.reset {s : Loop Float} (h : s.IsBounded) : s.reset.IsBounded := by
  have hclamp := (isNaN_of_le h).2
  rw [isNaN_abs] at hclamp
  have hzero : (0.0 : Float).abs = 0.0 := rfl
  show (0.0 : Float).abs ≤ s.gains.iClamp.abs
  rw [hzero]
  exact zero_le_abs hclamp

end Loop

/-! ## six loops -/

namespace Spatial

section Updates

variable {α : Type} [Scalar α] [TellsTime α] {s t : Spatial α} {error output : Axes α}
  {period : Period}

/-- A period that is not zero steps the loops in their order, each with its component. -/
theorem update?_eq (s : Spatial α) (error : Axes α) (hp : period.isZero = false) :
    s.update? error period =
      (Vector.ofFnM (m := Option) fun i =>
        (s.loops.get i).update? (error.component i) period.seconds).map
        fun r => (.ofComponents fun i => (r.get i).1, ⟨r.map Prod.snd⟩) := by
  have htime : ¬ (period.seconds : α) ≤ 0 := by
    rw [TellsTime.seconds_le_zero_iff, hp]
    exact Bool.false_ne_true
  unfold update?
  dsimp only
  rw [if_neg htime]
  cases Vector.ofFnM (m := Option) fun i =>
    (s.loops.get i).update? (error.component i) period.seconds <;> rfl

/-- **An update that takes time is one of every loop.** -/
theorem update?_eq_some_iff_forall (hp : period.isZero = false) :
    s.update? error period = some (output, t) ↔
      ∀ k, (s.loop k).update? (error.get k) period.seconds = some (output.get k, t.loop k) := by
  rw [update?_eq s error hp, Option.map_eq_some_iff]
  constructor
  · rintro ⟨r, hr, hrt⟩ k
    cases hrt
    have hk := ofFnM_eq_some_iff.mp hr k.position
    rw [Axes.component_position] at hk
    simpa [loop, Vector.get_eq_getElem] using hk
  · intro h
    refine ⟨Vector.ofFn fun i => (output.component i, t.loops.get i),
      ofFnM_eq_some_iff.mpr fun i => ?_, ?_⟩
    · obtain ⟨k, rfl⟩ := Axis.exists_position i
      simpa [loop, Vector.get_eq_getElem] using h k
    · refine Prod.ext (Axes.ext_get fun k => ?_) (ext_loop fun k => ?_)
      · simp
      · simp [loop, Vector.get_eq_getElem]

theorem update?_eq_none_iff (hp : period.isZero = false) : s.update? error period = none ↔
    ∃ k, (s.loop k).update? (error.get k) period.seconds = none := by
  rw [update?_eq s error hp, Option.map_eq_none_iff, ofFnM_eq_none_iff]
  constructor
  · rintro ⟨i, hi⟩
    obtain ⟨k, rfl⟩ := Axis.exists_position i
    rw [Axes.component_position] at hi
    exact ⟨k, hi⟩
  · rintro ⟨k, hk⟩
    refine ⟨k.position, ?_⟩
    rw [Axes.component_position]
    exact hk

/-! ### gains -/

theorem gains_of_update? (hp : period.isZero = false)
    (h : s.update? error period = some (output, t)) : t.gains = s.gains :=
  SpatialGains.ext_get fun k => by
    rw [get_gains, get_gains]
    exact Loop.gains_of_update? ((update?_eq_some_iff_forall hp).mp h k)

omit [TellsTime α]

theorem gains_ofGains (g : SpatialGains α) : (ofGains g).gains = g :=
  SpatialGains.ext_get fun k => by rw [get_gains, loop_ofGains, Loop.ofGains]

theorem gains_reset (s : Spatial α) : s.reset.gains = s.gains :=
  SpatialGains.ext_get fun k => by rw [get_gains, get_gains, loop_reset, Loop.reset]

theorem reset_ofGains (g : SpatialGains α) : (ofGains g).reset = ofGains g :=
  ext_loop fun k => by rw [loop_reset, loop_ofGains]; rfl

theorem gains_timeJump (s : Spatial α) : s.timeJump.gains = s.gains :=
  SpatialGains.ext_get fun k => by rw [get_gains, get_gains, loop_timeJump, Loop.timeJump]

omit [Scalar α] in
theorem gains_setGains (s : Spatial α) (g : SpatialGains α) : (s.setGains g).gains = g :=
  SpatialGains.ext_get fun k => by rw [get_gains, loop_setGains, Loop.setGains]

end Updates

/-! ### memory -/

variable {s t : Spatial Float} {error output : Axes Float} {period : Period}

theorem updates_of_update? (hp : period.isZero = false)
    (h : s.update? error period = some (output, t)) (k : Axis) :
    (s.loop k).Updates (error.get k) period.seconds (output.get k) (t.loop k) :=
  Loop.updates_of_update? ((update?_eq_some_iff_forall hp).mp h k)

/-- In double precision it is the bound of an integral that stands in the way of an output. -/
theorem update?_eq_none_iff_isNaN (hp : period.isZero = false) :
    s.update? error period = none ↔ ∃ k, (s.gains.get k).iClamp.isNaN = true := by
  simp only [update?_eq_none_iff hp, Loop.update?_eq_none_iff, get_gains]

/-- What the loops remember is finite. -/
def IsFinite (s : Spatial Float) : Prop := ∀ k, (s.loop k).IsFinite

/-- The integrals are within their bounds. -/
def IsBounded (s : Spatial Float) : Prop := ∀ k, (s.loop k).IsBounded

theorem isFinite_of_update? (hp : period.isZero = false) (he : error.isFinite = true)
    (hu : s.update? error period = some (output, t)) (ho : output.isFinite = true) :
    t.IsFinite := fun k =>
  (updates_of_update? hp hu k).isFinite (Axes.isFinite_iff.mp he k) (Axes.isFinite_iff.mp ho k)

theorem isBounded_of_update? (hp : period.isZero = false)
    (hu : s.update? error period = some (output, t)) (ht : t.IsFinite) : t.IsBounded := fun k =>
  (updates_of_update? hp hu k).isBounded (ht k)

theorem isFinite_ofGains (g : SpatialGains Float) : (ofGains g).IsFinite := fun k => by
  rw [loop_ofGains]
  exact Loop.isFinite_ofGains _

theorem isFinite_reset (s : Spatial Float) : s.reset.IsFinite := fun k => by
  rw [loop_reset]
  exact Loop.isFinite_reset _

theorem IsFinite.timeJump (h : s.IsFinite) : s.timeJump.IsFinite := fun k => by
  rw [loop_timeJump]
  exact (h k).timeJump

theorem IsFinite.setGains (h : s.IsFinite) (g : SpatialGains Float) : (s.setGains g).IsFinite :=
  fun k => by
    rw [loop_setGains]
    exact (h k).setGains _

theorem IsBounded.reset (h : s.IsBounded) : s.reset.IsBounded := fun k => by
  rw [loop_reset]
  exact (h k).reset

theorem IsBounded.timeJump (h : s.IsBounded) : s.timeJump.IsBounded := fun k => by
  rw [loop_timeJump]
  exact h k

end Spatial

end Pid

end ArmServo
