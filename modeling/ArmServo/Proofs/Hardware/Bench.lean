import ArmServo.Proofs.Controller.Orders
import ArmServo.Proofs.Related

/-!
# Commands at a bench

A handle is the place of the first joint of a name, so handles of different names are different
places, and they stay what they are as long as no joint is renamed or taken away. Commands through
handles of different places change each of these joints once and no other joint.

Main statements: `nodup_index`, `joint_setAll_of_mem`, `joint_setAll_of_not_mem`.
-/

namespace ArmServo

variable {α : Type}

/-- The joint after a command. -/
def BenchJoint.told (x : α) (j : BenchJoint α) : BenchJoint α :=
  { j with command := some x, writes := j.writes + 1 }

namespace Bench

/-- The names of all joints. -/
def names (b : Bench α) : List String := b.joints.map BenchJoint.name

/-! ## handles -/

theorem index?_eq_names (b : Bench α) (name : String) :
    b.index? name = b.names.findIdx? (· == name) := by
  rw [index?, names, List.findIdx?_map]
  rfl

theorem handle?_of_prefix {b b' : Bench α} (h : b.names <+: b'.names) {name : String}
    {j : BenchHandle} (hj : b.handle? name = some j) : b'.handle? name = some j := by
  obtain ⟨i, hi, rfl⟩ := Option.map_eq_some_iff.mp hj
  obtain ⟨added, hadded⟩ := h
  rw [index?_eq_names] at hi
  rw [handle?, index?_eq_names, ← hadded, List.findIdx?_append, hi]
  rfl

theorem joint_of_handle? {b : Bench α} {name : String} {j : BenchHandle}
    (hj : b.handle? name = some j) :
    j.name = name ∧ ∃ joint, b.joints[j.index]? = some joint ∧ joint.name = name := by
  obtain ⟨i, hi, rfl⟩ := Option.map_eq_some_iff.mp hj
  obtain ⟨hlt, hname, -⟩ := List.findIdx?_eq_some_iff_getElem.mp hi
  exact ⟨rfl, _, List.getElem?_eq_getElem hlt, by simpa using hname⟩

theorem nodup_index {b : Bench α} {joints : List String} {handles : List BenchHandle}
    (h : List.Forall₂ (fun name j => b.handle? name = some j) joints handles)
    (hnodup : joints.Nodup) : (handles.map BenchHandle.index).Nodup := by
  have hnames : (handles.map BenchHandle.index).map (b.joints[·]?.map BenchJoint.name) =
      joints.map some := by
    clear hnodup
    induction h with
    | nil => rfl
    | cons hj _ ih =>
      obtain ⟨-, joint, hat, rfl⟩ := joint_of_handle? hj
      rw [List.map_cons, List.map_cons, List.map_cons, ih, hat]
      rfl
  refine List.Nodup.of_map (b.joints[·]?.map BenchJoint.name) ?_
  rw [hnames]
  exact hnodup.map (Option.some_injective _)

/-! ## commands -/

theorem joint_setCommand (b : Bench α) (j : BenchHandle) (x : α) (i : Nat) :
    (b.setCommand j x).joints[i]? =
      if j.index = i then b.joints[i]?.map (BenchJoint.told x) else b.joints[i]? := by
  refine (List.getElem?_modify _ j.index b.joints i).trans ?_
  split
  · rfl
  · exact Option.map_id'

theorem names_setCommand (b : Bench α) (j : BenchHandle) (x : α) :
    (b.setCommand j x).names = b.names := by
  refine List.ext_getElem? fun i => ?_
  rw [names, names, List.getElem?_map, List.getElem?_map, joint_setCommand]
  split
  · rw [Option.map_map]
    rfl
  · rfl

variable [Scalar α]

theorem names_setAll (b : Bench α) (commands : List (BenchHandle × α)) :
    (JointBus.setAll b commands).names = b.names := by
  induction commands generalizing b with
  | nil => rfl
  | cons c commands ih => exact (ih _).trans (names_setCommand b c.1 c.2)

theorem joint_setAll_of_not_mem (b : Bench α) {commands : List (BenchHandle × α)} {i : Nat}
    (hi : i ∉ commands.map (·.1.index)) :
    (JointBus.setAll b commands).joints[i]? = b.joints[i]? := by
  induction commands generalizing b with
  | nil => rfl
  | cons c commands ih =>
    rw [List.map_cons, List.mem_cons, not_or] at hi
    refine (ih _ hi.2).trans ?_
    exact (joint_setCommand b c.1 c.2 i).trans (if_neg (Ne.symm hi.1))

/-- **Through handles of different places every joint gets its own command**, once. -/
theorem joint_setAll_of_mem (b : Bench α) {commands : List (BenchHandle × α)}
    (hnodup : (commands.map (·.1.index)).Nodup) {j : BenchHandle} {x : α}
    (hj : (j, x) ∈ commands) :
    (JointBus.setAll b commands).joints[j.index]? =
      b.joints[j.index]?.map (BenchJoint.told x) := by
  induction commands generalizing b with
  | nil => cases hj
  | cons c commands ih =>
    obtain ⟨hc, hnodup⟩ := List.nodup_cons.mp hnodup
    rcases List.mem_cons.mp hj with rfl | hj
    · refine (joint_setAll_of_not_mem _ hc).trans ?_
      exact (joint_setCommand b j x j.index).trans (if_pos rfl)
    · have hne : c.1.index ≠ j.index := by
        intro he
        apply hc
        exact List.mem_map.mpr ⟨(j, x), hj, he.symm⟩
      refine (ih _ hnodup hj).trans (congrArg _ ?_)
      exact (joint_setCommand b c.1 c.2 j.index).trans (if_neg hne)

/-- From one bench to the other, each of the named joints has got one command, and nothing else has
changed. -/
structure ToldOnce (joints : List String) (b b' : Bench α) : Prop where
  told : ∀ name ∈ joints, ∃ i joint x, b.index? name = some i ∧ b.joints[i]? = some joint ∧
    joint.name = name ∧ b'.joints[i]? = some (joint.told x)
  kept : ∀ i, (∀ name ∈ joints, b.index? name ≠ some i) → b'.joints[i]? = b.joints[i]?

/-- **One command to each handle is one command to each joint.** -/
theorem toldOnce_setAll {b : Bench α} {joints : List String} {commands : List (BenchHandle × α)}
    (h : List.Forall₂ (fun name j => b.handle? name = some j) joints (commands.map Prod.fst))
    (hnodup : joints.Nodup) : b.ToldOnce joints (JointBus.setAll b commands) := by
  have hindex : (commands.map (·.1.index)).Nodup := by
    have hmap := nodup_index h hnodup
    rwa [List.map_map] at hmap
  rw [List.forall₂_map_right_iff] at h
  constructor
  · intro name hname
    obtain ⟨⟨j, x⟩, hj, hat⟩ := exists_of_forall₂ h hname
    obtain ⟨-, joint, hjoint, rfl⟩ := joint_of_handle? hat
    obtain ⟨i, hi, rfl⟩ := Option.map_eq_some_iff.mp hat
    refine ⟨i, joint, x, hi, hjoint, rfl, ?_⟩
    refine (joint_setAll_of_mem b hindex hj).trans ?_
    rw [hjoint]
    rfl
  · intro i hi
    refine joint_setAll_of_not_mem b fun hmem => ?_
    obtain ⟨c, hc, rfl⟩ := List.mem_map.mp hmem
    obtain ⟨name, hname, hat⟩ := exists_of_forall₂ h.flip hc
    obtain ⟨k, hk, hck⟩ := Option.map_eq_some_iff.mp hat
    exact hi name hname (by rw [hk, ← hck])

/-! ## counters -/

omit [Scalar α] in
theorem totalWrites_setCommand {b : Bench α} {j : BenchHandle} (hj : j.index < b.joints.length)
    (x : α) : (b.setCommand j x).totalWrites = b.totalWrites + 1 := by
  obtain ⟨joints⟩ := b
  obtain ⟨name, i⟩ := j
  unfold setCommand modifyAt totalWrites
  dsimp only at hj ⊢
  induction joints generalizing i with
  | nil => exact absurd hj (Nat.not_lt_zero i)
  | cons joint joints ih =>
    cases i with
    | zero =>
      rw [List.modify_zero_cons, List.foldr_cons, List.foldr_cons]
      exact Nat.add_right_comm joint.writes 1 _
    | succ i =>
      rw [List.modify_succ_cons, List.foldr_cons, List.foldr_cons, ih i (Nat.lt_of_succ_lt_succ hj)]
      omega

omit [Scalar α] in
theorem length_names (b : Bench α) : b.names.length = b.joints.length := List.length_map _

theorem length_setAll (b : Bench α) (commands : List (BenchHandle × α)) :
    (JointBus.setAll b commands).joints.length = b.joints.length := by
  rw [← length_names, names_setAll, length_names]

theorem totalWrites_setAll {b : Bench α} {commands : List (BenchHandle × α)}
    (h : ∀ c ∈ commands, c.1.index < b.joints.length) :
    (JointBus.setAll b commands).totalWrites = b.totalWrites + commands.length := by
  induction commands generalizing b with
  | nil => rfl
  | cons c commands ih =>
    rw [List.forall_mem_cons] at h
    have hlength : (b.setCommand c.1 c.2).joints.length = b.joints.length := List.length_modify ..
    have hrest : ∀ d ∈ commands, d.1.index < (b.setCommand c.1 c.2).joints.length := by
      rw [hlength]
      exact h.2
    show (JointBus.setAll (b.setCommand c.1 c.2) commands).totalWrites = _
    rw [ih hrest, totalWrites_setCommand h.1, List.length_cons]
    omega

theorem length_step (b : Bench α) (kind : CommandKind) (period : Period) :
    (b.step kind period).joints.length = b.joints.length := List.length_map _

theorem totalWrites_step (b : Bench α) (kind : CommandKind) (period : Period) :
    (b.step kind period).totalWrites = b.totalWrites := by
  have hwrites : ∀ j : BenchJoint α, (j.follow kind period.seconds).writes = j.writes := by
    intro j
    unfold BenchJoint.follow
    cases j.command with
    | none => rfl
    | some x => cases kind <;> rfl
  unfold totalWrites step
  rw [List.foldr_map]
  simp only [hwrites]

theorem joints_ofList (joints : List (String × α)) :
    (ofList joints).joints = joints.map fun j => ⟨j.1, j.2, 0, none, 0⟩ := by
  have hfold : ∀ b : Bench α, (joints.foldl (fun b j => b.add j.1 j.2) b).joints =
      b.joints ++ joints.map fun j => ⟨j.1, j.2, 0, none, 0⟩ := by
    induction joints with
    | nil => exact fun b => (List.append_nil _).symm
    | cons j joints ih =>
      intro b
      rw [List.foldl_cons, ih, List.map_cons, List.append_cons]
      rfl
  exact hfold empty

theorem totalWrites_ofList (joints : List (String × α)) : (ofList joints).totalWrites = 0 := by
  unfold totalWrites
  rw [joints_ofList, List.foldr_map]
  induction joints with
  | nil => rfl
  | cons j joints ih => rw [List.foldr_cons, ih]

end Bench

end ArmServo
