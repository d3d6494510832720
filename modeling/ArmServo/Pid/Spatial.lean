import ArmServo.Geometry.Axes
import ArmServo.Period
import ArmServo.Pid.Loop

/-!
# Six loops

One loop per Cartesian axis, from an error to a Cartesian velocity. Gains are given by the name of
an axis, loops stand in a row, and errors and outputs are six-vectors; `SpatialGains.toVector`,
`Spatial.setGains` and `Spatial.gains` each say for themselves which loop belongs to which axis.
-/

namespace ArmServo.Pid

/-- The gains of the six axes, by name. -/
structure SpatialGains (α : Type) where
  transX : Gains α
  transY : Gains α
  transZ : Gains α
  rotX : Gains α
  rotY : Gains α
  rotZ : Gains α
deriving BEq, DecidableEq, Repr, Inhabited

namespace SpatialGains

variable {α : Type}

def get (g : SpatialGains α) : Axis → Gains α
  | .transX => g.transX
  | .transY => g.transY
  | .transZ => g.transZ
  | .rotX => g.rotX
  | .rotY => g.rotY
  | .rotZ => g.rotZ

theorem ext_get {g h : SpatialGains α} (heq : ∀ k, g.get k = h.get k) : g = h := by
  cases g; cases h
  have h1 := heq .transX; have h2 := heq .transY; have h3 := heq .transZ
  have h4 := heq .rotX; have h5 := heq .rotY; have h6 := heq .rotZ
  simp only [get] at h1 h2 h3 h4 h5 h6
  simp [h1, h2, h3, h4, h5, h6]

/-- The same gains on the linear axes and others on the angular ones. -/
def ofKinds (trans rot : Gains α) : SpatialGains α :=
  { transX := trans, transY := trans, transZ := trans, rotX := rot, rotY := rot, rotZ := rot }

/-- The same gains on every axis. -/
def uniform (g : Gains α) : SpatialGains α := ofKinds g g

@[simp] theorem get_uniform (g : Gains α) (k : Axis) : (uniform g).get k = g := by cases k <;> rfl

/-- The gains that are there for each axis. -/
def ofAxes (v : Axes (Gains α)) : SpatialGains α :=
  { transX := v.transX, transY := v.transY, transZ := v.transZ,
    rotX := v.rotX, rotY := v.rotY, rotZ := v.rotZ }

instance : Coe (Axes (Gains α)) (SpatialGains α) := ⟨ofAxes⟩

/-- The gains in the order of the components of a velocity. -/
def toVector (g : SpatialGains α) : Vector (Gains α) 6 :=
  #v[g.transX, g.transY, g.transZ, g.rotX, g.rotY, g.rotZ]

@[simp] theorem getElem_toVector (g : SpatialGains α) (k : Axis) :
    g.toVector[(k.position : Nat)] = g.get k := by
  cases k <;> rfl

def toList (g : SpatialGains α) : List (Gains α) := g.toVector.toList

theorem toList_eq_map (g : SpatialGains α) : g.toList = Axis.all.map g.get := rfl

end SpatialGains

/-- The loops of the six axes, in the order of the components of a velocity. -/
structure Spatial (α : Type) where
  loops : Vector (Loop α) 6
deriving BEq, DecidableEq, Repr, Inhabited

namespace Spatial

variable {α : Type}

/-- The loop of an axis. -/
def loop (s : Spatial α) (k : Axis) : Loop α := s.loops[k.position]

theorem ext_loop {s t : Spatial α} (h : ∀ k, s.loop k = t.loop k) : s = t := by
  obtain ⟨v⟩ := s
  obtain ⟨w⟩ := t
  congr 1
  refine Vector.ext fun i hi => ?_
  obtain ⟨k, hk⟩ := Axis.exists_position ⟨i, hi⟩
  have := h k
  simpa [loop, hk] using this

/-- The gains in force. -/
def gains (s : Spatial α) : SpatialGains α :=
  let g := s.loops.map Loop.gains
  { transX := g[0], transY := g[1], transZ := g[2], rotX := g[3], rotY := g[4], rotZ := g[5] }

@[simp] theorem get_gains (s : Spatial α) (k : Axis) : s.gains.get k = (s.loop k).gains := by
  cases k <;> exact Vector.getElem_map ..

/-- Puts new gains in force, loop by loop, and keeps the memory. -/
def setGains (s : Spatial α) (g : SpatialGains α) : Spatial α :=
  ⟨s.loops.zipWith Loop.setGains g.toVector⟩

@[simp] theorem loop_setGains (s : Spatial α) (g : SpatialGains α) (k : Axis) :
    (s.setGains g).loop k = (s.loop k).setGains (g.get k) := by
  simp [setGains, loop]

def integrals (s : Spatial α) : Axes α := .ofComponents fun i => (s.loops.get i).integral

@[simp] theorem get_integrals (s : Spatial α) (k : Axis) :
    s.integrals.get k = (s.loop k).integral :=
  Axes.get_ofComponents ..

variable [Scalar α]

def ofGains (g : SpatialGains α) : Spatial α := ⟨g.toVector.map Loop.ofGains⟩

@[simp] theorem loop_ofGains (g : SpatialGains α) (k : Axis) :
    (ofGains g).loop k = .ofGains (g.get k) := by
  simp [ofGains, loop]

def reset (s : Spatial α) : Spatial α := ⟨s.loops.map Loop.reset⟩

@[simp] theorem loop_reset (s : Spatial α) (k : Axis) : s.reset.loop k = (s.loop k).reset := by
  simp [reset, loop]

/-- After a gap in time the last errors are forgotten; the integrals stay. -/
def timeJump (s : Spatial α) : Spatial α := ⟨s.loops.map Loop.timeJump⟩

@[simp] theorem loop_timeJump (s : Spatial α) (k : Axis) :
    s.timeJump.loop k = (s.loop k).timeJump := by
  simp [timeJump, loop]

/-- The outputs of all axes and the loops after them. A period that is no time at all gives zeros
and changes nothing. -/
def update? (s : Spatial α) (error : Axes α) (period : Period) : Option (Axes α × Spatial α) :=
  let dt : α := period.seconds
  if dt ≤ 0 then some (.zero, s)
  else
    match Vector.ofFnM (m := Option) fun i => (s.loops.get i).update? (error.component i) dt with
    | some r => some (.ofComponents fun i => (r.get i).1, ⟨r.map Prod.snd⟩)
    | none => none

end Spatial

end ArmServo.Pid
