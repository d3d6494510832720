import Mathlib
import ArmServo.Proofs.Hardware.Bench
import ArmServo.Proofs.Motion.Joints

/-!
# What a servo makes of commands

The velocity that a joint reports leads from its measured position to its new one. So in exact
arithmetic a servo that jumps to a position and a servo that integrates a velocity end at the same
place and at the same velocity.

Main statement: `Bench.tracks_of_moves`.
-/

namespace ArmServo

/-! ## what is measured at a bench -/

namespace Bench

section Readings

variable {α : Type}

/-- The position that is measured through a handle. -/
def position? (b : Bench α) (j : BenchHandle) : Option α :=
  b.joints[j.index]?.map BenchJoint.position

/-- The velocity that is measured through a handle. -/
def velocity? (b : Bench α) (j : BenchHandle) : Option α :=
  b.joints[j.index]?.map BenchJoint.velocity

/-- The motion is what is measured at the named joints. -/
structure Shows (b : Bench α) (joints : List String) (m : Motion α) : Prop where
  positions : joints.map (fun name => (b.joint? name).map BenchJoint.position) =
    m.positions.map some
  velocities : joints.map (fun name => (b.joint? name).map BenchJoint.velocity) =
    m.velocities.map some

/-- The motion is what is measured through the handles. -/
structure Tracks (b : Bench α) (handles : List BenchHandle) (m : Motion α) : Prop where
  positions : List.Forall₂ (fun j q => b.position? j = some q) handles m.positions
  velocities : List.Forall₂ (fun j v => b.velocity? j = some v) handles m.velocities

/-- All measured velocities. -/
def velocities (b : Bench α) : List α := b.joints.map BenchJoint.velocity

theorem position?_eq_positions (b : Bench α) (j : BenchHandle) :
    b.position? j = b.positions[j.index]? :=
  List.getElem?_map.symm

theorem joint?_eq_bind (b : Bench α) (name : String) :
    b.joint? name = (b.handle? name).bind fun j => b.joints[j.index]? := by
  rw [joint?, List.find?_eq_bind_findIdx?_getElem?, handle?, index?, Option.bind_map]
  rfl

/-- What is measured through the handles of joints is what is measured at the joints. -/
theorem Tracks.shows {b : Bench α} {joints : List String} {handles : List BenchHandle}
    {m : Motion α} (ht : b.Tracks handles m)
    (hh : List.Forall₂ (fun name j => b.handle? name = some j) joints handles) :
    b.Shows joints m := by
  have hread : ∀ {read : BenchJoint α → α} {xs : List α},
      List.Forall₂ (fun j x => b.joints[j.index]?.map read = some x) handles xs →
      joints.map (fun name => (b.joint? name).map read) = xs.map some := by
    intro read xs hxs
    rw [forall₂_map_eq_iff] at hh hxs
    calc joints.map (fun name => (b.joint? name).map read)
        = (joints.map b.handle?).map fun h => h.bind fun j => b.joints[j.index]?.map read := by
          rw [List.map_map]
          refine List.map_congr_left fun name _ => ?_
          rw [joint?_eq_bind, Option.map_bind]
          rfl
      _ = handles.map fun j => b.joints[j.index]?.map read := by
          rw [hh, List.map_map]
          rfl
      _ = xs.map some := hxs
  exact ⟨hread ht.positions, hread ht.velocities⟩

/-- What a controller measures is the motion that its handles track. -/
theorem Tracks.measured [Scalar α] {b : Bench α} {handles : List BenchHandle} {m : Motion α}
    (h : b.Tracks handles m) :
    handles.map (fun j => (JointBus.position b j, JointBus.velocity b j)) =
      m.positions.zip m.velocities := by
  have hread : ∀ {f : BenchHandle → Option α} {xs : List α},
      List.Forall₂ (fun j x => f j = some x) handles xs →
      handles.map (fun j => (f j).getD 0) = xs := by
    intro f xs hxs
    rw [forall₂_map_eq_iff] at hxs
    have hget := congrArg (List.map fun x => x.getD 0) hxs
    simpa only [List.map_map, Function.comp_def, Option.getD_some, List.map_id'] using hget
  rw [← List.zip_map', ← hread h.positions, ← hread h.velocities]
  rfl

theorem tracks_measured [Scalar α] {b : Bench α} {joints : List String}
    {handles : List BenchHandle}
    (hh : List.Forall₂ (fun name j => b.handle? name = some j) joints handles) :
    b.Tracks handles
      ⟨(handles.map fun j => (JointBus.position b j, JointBus.velocity b j)).map Prod.fst,
        (handles.map fun j => (JointBus.position b j, JointBus.velocity b j)).map Prod.snd⟩ := by
  have hread : ∀ read : BenchJoint α → α,
      List.Forall₂ (fun j x => b.joints[j.index]?.map read = some x) handles
        (handles.map fun j => (b.joints[j.index]?.map read).getD 0) := by
    intro read
    rw [List.forall₂_map_right_iff, List.forall₂_same]
    intro j hj
    obtain ⟨name, -, hat⟩ := exists_of_forall₂ hh.flip hj
    obtain ⟨-, joint, hjoint, -⟩ := joint_of_handle? hat
    rw [hjoint]
    rfl
  rw [List.map_map, List.map_map]
  exact ⟨hread BenchJoint.position, hread BenchJoint.velocity⟩

end Readings

/-! ## a period of the servo -/

section Follow

variable {α : Type} [Scalar α]

theorem names_step (b : Bench α) (kind : CommandKind) (period : Period) :
    (b.step kind period).names = b.names := by
  unfold names step
  rw [List.map_map]
  refine List.map_congr_left fun j _ => ?_
  show (j.follow kind period.seconds).name = j.name
  unfold BenchJoint.follow
  cases j.command with
  | none => rfl
  | some c => cases kind <;> rfl

theorem joint_step (b : Bench α) (kind : CommandKind) (period : Period) (i : Nat) :
    (b.step kind period).joints[i]? = b.joints[i]?.map (BenchJoint.follow kind period.seconds) :=
  List.getElem?_map

end Follow

/-- **Either kind of command takes a joint to the same place at the same velocity.** -/
theorem follow_told {joint : BenchJoint ℝ} {dt x v : ℝ} (hdt : 0 < dt)
    (hx : x = joint.position + v * dt) (kind : CommandKind) :
    ((joint.told (kind.pick x v)).follow kind dt).position = x ∧
      ((joint.told (kind.pick x v)).follow kind dt).velocity = v := by
  cases kind with
  | position =>
    refine ⟨rfl, ?_⟩
    show (if 0 < dt then (x - joint.position) / dt else joint.velocity) = v
    rw [if_pos hdt, hx, add_sub_cancel_left, mul_div_assoc, div_self hdt.ne', mul_one]
  | velocity => exact ⟨hx.symm, rfl⟩

/-- **The servo takes all joints to their new positions.** The induction is on the motion of the
joints, so that a handle, its joint and its command are met together. -/
theorem tracks_of_moves {dt : ℝ} (hdt : 0 < dt) (kind : CommandKind) {b b' : Bench ℝ}
    {handles : List BenchHandle} {ls : List (Limits ℝ)} {qs us : List ℝ} {m : Motion ℝ}
    (hm : Solver.Moves dt ls qs us m)
    (hq : List.Forall₂ (fun j q => b.position? j = some q) handles qs)
    (hb : ∀ c ∈ handles.zip (m.commands kind), b'.joints[c.1.index]? =
      b.joints[c.1.index]?.map fun joint => (joint.told c.2).follow kind dt) :
    b'.Tracks handles m := by
  induction hm generalizing handles with
  | nil =>
    cases hq
    exact ⟨.nil, .nil⟩
  | @cons l q u x v ls qs us m hjoint hrest ih =>
    cases hq with
    | @cons j _ handles _ hj hq =>
      rw [Motion.commands_cons, List.zip_cons_cons] at hb
      obtain ⟨hpositions, hvelocities⟩ := ih hq fun c hc => hb c (List.mem_cons_of_mem _ hc)
      obtain ⟨joint, hat, rfl⟩ := Option.map_eq_some_iff.mp hj
      have hnew := hb _ List.mem_cons_self
      rw [hat] at hnew
      obtain ⟨hx, hv⟩ := follow_told hdt (Solver.exact_of_moveJoint? hdt.ne' hjoint) kind
      exact ⟨.cons (by rw [position?, hnew]; exact congrArg some hx) hpositions,
        .cons (by rw [velocity?, hnew]; exact congrArg some hv) hvelocities⟩

end Bench

end ArmServo
