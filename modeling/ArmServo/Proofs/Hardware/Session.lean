import ArmServo.Hardware.Session
import ArmServo.Proofs.Hardware.Servo
import ArmServo.Proofs.Scalar.Value

/-!
# The books of a bench

Whatever is done at a bench and in whatever order, a name means the joint that was first added under
it, a handle means what its name means, and a joint has the last of the commands that were sent to
it and has counted them all. A joint that was added under a name already taken stays as it is.

Main statement: `keepsBooks_after`.
-/

namespace ArmServo

/-! ## the first of a name -/

/-- The place at which a name stands for the first time. -/
def Earliest (names : List String) (name : String) (i : Nat) : Prop :=
  names[i]? = some name ∧ name ∉ names.take i

instance (names : List String) (name : String) (i : Nat) : Decidable (Earliest names name i) :=
  inferInstanceAs (Decidable (_ ∧ _))

theorem findIdx?_eq_some_iff_earliest {names : List String} {name : String} {i : Nat} :
    names.findIdx? (· == name) = some i ↔ Earliest names name i := by
  rw [List.findIdx?_eq_some_iff_getElem]
  constructor
  · rintro ⟨hi, hname, hfirst⟩
    refine ⟨List.getElem?_eq_some_iff.mpr ⟨hi, by simpa using hname⟩, fun hmem => ?_⟩
    obtain ⟨j, hj, hat⟩ := List.mem_take_iff_getElem.mp hmem
    exact hfirst j (lt_min_iff.mp hj).1 (by simpa using hat)
  · rintro ⟨hname, hfirst⟩
    obtain ⟨hi, hat⟩ := List.getElem?_eq_some_iff.mp hname
    refine ⟨hi, by simpa using hat, fun j hj hjname => hfirst ?_⟩
    exact List.mem_take_iff_getElem.mpr ⟨j, lt_min hj (hj.trans hi), by simpa using hjname⟩

/-- Only the name at a place can be there for the first time. -/
theorem Earliest.of_name {names : List String} {name other : String} {i : Nat}
    (hi : Earliest names name i) (h : names[i]? = some other) : Earliest names other i := by
  rw [hi.1] at h
  exact Option.some.inj h ▸ hi

theorem Earliest.unique {names : List String} {name : String} {i j : Nat}
    (hi : Earliest names name i) (hj : Earliest names name j) : i = j := by
  rw [← findIdx?_eq_some_iff_earliest] at hi hj
  exact Option.some.inj (hi.symm.trans hj)

theorem earliest_append {names more : List String} {name : String} {i : Nat}
    (hi : i < names.length) : Earliest (names ++ more) name i ↔ Earliest names name i := by
  unfold Earliest
  rw [List.getElem?_append_left hi, List.take_append_of_le_length hi.le]

variable {α : Type}

theorem getElem?_concat_eq_some_iff {xs : List α} {y x : α} {i : Nat} :
    (xs ++ [y])[i]? = some x ↔ xs[i]? = some x ∨ i = xs.length ∧ x = y := by
  rcases Nat.lt_or_ge i xs.length with hi | hi
  · rw [List.getElem?_append_left hi]
    exact (or_iff_left fun h => hi.ne h.1).symm
  · rw [List.getElem?_append_right hi, List.getElem?_eq_none hi, List.getElem?_singleton]
    grind

namespace Bench

/-! ## joints and handles -/

/-- **A handle is the earliest place of its name.** -/
theorem handle?_eq_some_iff {b : Bench α} {name : String} {h : BenchHandle} :
    b.handle? name = some h ↔ h.name = name ∧ Earliest b.names name h.index := by
  rw [handle?, index?_eq_names, Option.map_eq_some_iff, ← findIdx?_eq_some_iff_earliest]
  constructor
  · rintro ⟨i, hi, rfl⟩
    exact ⟨rfl, hi⟩
  · rintro ⟨rfl, hi⟩
    exact ⟨h.index, hi, rfl⟩

/-- **A name means the joint at its earliest place.** -/
theorem joint?_eq_some_iff {b : Bench α} {name : String} {joint : BenchJoint α} :
    b.joint? name = some joint ↔
      ∃ i, Earliest b.names name i ∧ b.joints[i]? = some joint := by
  rw [joint?_eq_bind, Option.bind_eq_some_iff]
  constructor
  · rintro ⟨h, hh, hjoint⟩
    exact ⟨h.index, (handle?_eq_some_iff.mp hh).2, hjoint⟩
  · rintro ⟨i, hi, hjoint⟩
    exact ⟨⟨name, i⟩, handle?_eq_some_iff.mpr ⟨rfl, hi⟩, hjoint⟩

theorem name_of_joint {b : Bench α} {i : Nat} {joint : BenchJoint α}
    (h : b.joints[i]? = some joint) : b.names[i]? = some joint.name := by
  rw [names, List.getElem?_map, h]
  rfl

/-! ## what is changed -/

theorem measure_fst (b : Bench α) (name : String) (x v : α) :
    (b.measure name x v).1 = true ↔ name ∈ b.names := by
  unfold measure
  rw [index?_eq_names]
  cases hindex : b.names.findIdx? (· == name) with
  | none => simpa using List.findIdx?_eq_none_iff.mp hindex name
  | some i =>
    obtain ⟨hi, hname, -⟩ := List.findIdx?_eq_some_iff_getElem.mp hindex
    exact iff_of_true rfl (beq_iff_eq.mp hname ▸ List.getElem_mem hi)

/-- **A measurement is one of the earliest joint of the name**, and of no other. -/
theorem joint_setMeasured (b : Bench α) (name : String) (x v : α) (i : Nat) :
    (b.setMeasured name x v).joints[i]? =
      if Earliest b.names name i then
        b.joints[i]?.map fun joint => { joint with position := x, velocity := v }
      else b.joints[i]? := by
  unfold setMeasured measure
  cases hindex : b.index? name with
  | none =>
    rw [index?_eq_names] at hindex
    rw [if_neg]
    intro hi
    rw [findIdx?_eq_some_iff_earliest.mpr hi] at hindex
    cases hindex
  | some k =>
    have hk : Earliest b.names name i ↔ k = i := by
      rw [← findIdx?_eq_some_iff_earliest, ← index?_eq_names, hindex, Option.some.injEq]
    rw [if_congr hk rfl rfl]
    refine (List.getElem?_modify _ k b.joints i).trans ?_
    split
    · rfl
    · exact Option.map_id'

end Bench

namespace BenchJoint

/-- What stands in the books about a joint: its name, its last command and the number of them. -/
def account (joint : BenchJoint α) : String × Option α × Nat :=
  (joint.name, joint.command, joint.writes)

variable [Scalar α]

theorem follow_of_no_command {joint : BenchJoint α} (h : joint.command = none)
    (kind : CommandKind) (dt : α) : joint.follow kind dt = joint := by
  obtain ⟨name, x, v, command, writes⟩ := joint
  cases h
  rfl

theorem follow_position {joint : BenchJoint α} {c : α} (h : joint.command = some c) (dt : α) :
    joint.follow .position dt =
      { joint with
        position := c
        velocity := if 0 < dt then (c - joint.position) / dt else joint.velocity } := by
  obtain ⟨name, x, v, command, writes⟩ := joint
  cases h
  rfl

theorem account_follow (joint : BenchJoint α) (kind : CommandKind) (dt : α) :
    (joint.follow kind dt).account = joint.account := by
  obtain ⟨name, x, v, command, writes⟩ := joint
  cases command with
  | none => rfl
  | some c => cases kind <;> rfl

end BenchJoint

namespace Bench

theorem names_of_accounts {b b' : Bench α}
    (h : b'.joints.map BenchJoint.account = b.joints.map BenchJoint.account) :
    b'.names = b.names := by
  have hnames := congrArg (List.map Prod.fst) h
  rwa [List.map_map, List.map_map] at hnames

theorem totalWrites_of_accounts {b b' : Bench α}
    (h : b'.joints.map BenchJoint.account = b.joints.map BenchJoint.account) :
    b'.totalWrites = b.totalWrites := by
  have hcount : ∀ b : Bench α,
      b.totalWrites = (b.joints.map BenchJoint.account).foldr (fun a n => a.2.2 + n) 0 := by
    intro b
    rw [List.foldr_map]
    rfl
  rw [hcount, hcount, h]

theorem accounts_setMeasured (b : Bench α) (name : String) (x v : α) :
    (b.setMeasured name x v).joints.map BenchJoint.account =
      b.joints.map BenchJoint.account := by
  refine List.ext_getElem? fun i => ?_
  rw [List.getElem?_map, List.getElem?_map, joint_setMeasured]
  split
  · rw [Option.map_map]
    rfl
  · rfl

section Follow

variable [Scalar α]

theorem accounts_step (b : Bench α) (kind : CommandKind) (period : Period) :
    (b.step kind period).joints.map BenchJoint.account = b.joints.map BenchJoint.account := by
  unfold step
  rw [List.map_map]
  exact List.map_congr_left fun joint _ => joint.account_follow kind period.seconds

theorem joint_step_of_no_command {b : Bench α} {i : Nat} {joint : BenchJoint α}
    (h : b.joints[i]? = some joint) (hcommand : joint.command = none) (kind : CommandKind)
    (period : Period) : (b.step kind period).joints[i]? = some joint := by
  rw [joint_step, h, Option.map_some, BenchJoint.follow_of_no_command hcommand]

/-- A joint reaches the position that it is told. -/
theorem joint_step_position {b : Bench α} {i : Nat} {joint : BenchJoint α} {c : α}
    (h : b.joints[i]? = some joint) (hcommand : joint.command = some c) (period : Period) :
    (b.step .position period).joints[i]? =
      some { joint with
        position := c
        velocity := if 0 < (period.seconds : α) then (c - joint.position) / period.seconds
          else joint.velocity } := by
  rw [joint_step, h, Option.map_some, BenchJoint.follow_position hcommand]

theorem names_add (b : Bench α) (name : String) (x : α) :
    (b.add name x).names = b.names ++ [name] := List.map_append

theorem totalWrites_add (b : Bench α) (name : String) (x : α) :
    (b.add name x).totalWrites = b.totalWrites := List.foldr_append

end Follow

/-- **A joint stays where it is told to be**: with the same command, the second of two steps to a
position finds nothing to do. -/
theorem step_step_position {b : Bench Float} {i : Nat} {joint : BenchJoint Float} {c : Float}
    (h : b.joints[i]? = some joint) (hcommand : joint.command = some c)
    (hc : c.isFinite = true) (period : Period) {again : Period} (hagain : again.isZero = false) :
    ((b.step .position period).step .position again).joints[i]? =
      some { joint with position := c, velocity := 0 } := by
  have hrest : (c - c) / again.seconds = 0 := by
    rw [Binary64.sub_self_of_isFinite hc, Binary64.zero_div_of_pos (Binary64.seconds_pos hagain)]
  rw [joint_step_position (joint_step_position h hcommand period) hcommand again]
  refine congrArg (fun v => some { joint with position := c, velocity := v }) ?_
  exact (if_pos (Binary64.seconds_pos hagain)).trans hrest

end Bench

namespace BenchSession

/-! ## what has been done -/

/-- The joints that are added, with their positions, the first one in front. -/
def added (calls : List (BenchCall α)) : List (String × α) := calls.filterMap BenchCall.added?

/-- The commands for the joint at a place, the first one in front. -/
def sentTo (i : Nat) (log : List (BenchHandle × α)) : List α :=
  (log.filter fun c => c.1.index = i).map Prod.snd

theorem sentTo_concat (i : Nat) (log : List (BenchHandle × α)) (h : BenchHandle) (x : α) :
    sentTo i (log ++ [(h, x)]) = sentTo i log ++ if h.index = i then [x] else [] := by
  unfold sentTo
  rw [List.filter_append, List.map_append]
  by_cases hi : h.index = i
  · rw [if_pos hi, List.filter_cons_of_pos (by simpa using hi)]
    rfl
  · rw [if_neg hi, List.filter_cons_of_neg (by simpa using hi)]
    rfl

section Runs

variable [Scalar α]

theorem after_concat (s : BenchSession α) (calls : List (BenchCall α)) (call : BenchCall α) :
    s.after (calls ++ [call]) = (s.after calls).next call := by
  unfold after
  rw [List.foldl_append]
  rfl

theorem log_concat (s : BenchSession α) (calls : List (BenchCall α)) (call : BenchCall α) :
    s.log (calls ++ [call]) = s.log calls ++ ((s.after calls).sent? call).toList := by
  induction calls generalizing s with
  | nil => exact List.append_nil _
  | cons first calls ih =>
    rw [List.cons_append, log, ih, log, List.append_assoc]
    rfl

end Runs

/-! ## what every call preserves -/

/-- **What holds at a bench** at which these joints have been added and these commands been sent. -/
structure Sound [Scalar α] (s : BenchSession α) (added : List (String × α))
    (log : List (BenchHandle × α)) : Prop where
  names : s.bench.names = added.map Prod.fst
  /-- A handle is what its name still gives. -/
  held : ∀ h ∈ s.handles, s.bench.handle? h.name = some h
  sent : ∀ c ∈ log, c.1 ∈ s.handles
  /-- A joint whose name was taken is as it was added. -/
  shadowed : ∀ {i name x}, added[i]? = some (name, x) → ¬ Earliest s.bench.names name i →
    s.bench.joints[i]? = some ⟨name, x, 0, none, 0⟩
  booked : ∀ {i joint}, s.bench.joints[i]? = some joint →
    joint.command = (sentTo i log).getLast? ∧ joint.writes = (sentTo i log).length
  total : s.bench.totalWrites = log.length

namespace Sound

variable [Scalar α] {s : BenchSession α} {added : List (String × α)}
  {log : List (BenchHandle × α)}

theorem start : (start : BenchSession α).Sound [] [] where
  names := rfl
  held := nofun
  sent := nofun
  shadowed := nofun
  booked := nofun
  total := rfl

theorem length_joints (h : s.Sound added log) : s.bench.joints.length = added.length := by
  rw [← Bench.length_names, h.names, List.length_map]

theorem earliest (h : s.Sound added log) {j : BenchHandle} (hj : j ∈ s.handles) :
    Earliest s.bench.names j.name j.index :=
  (Bench.handle?_eq_some_iff.mp (h.held j hj)).2

theorem held_of_names (h : s.Sound added log) {b : Bench α} (hnames : b.names = s.bench.names)
    {j : BenchHandle} (hj : j ∈ s.handles) : b.handle? j.name = some j :=
  Bench.handle?_of_prefix (hnames ▸ List.prefix_rfl) (h.held j hj)

theorem index_lt (h : s.Sound added log) {j : BenchHandle} (hj : j ∈ s.handles) :
    j.index < s.bench.joints.length := by
  rw [← Bench.length_names]
  exact (List.getElem?_eq_some_iff.mp (h.earliest hj).1).1

theorem sentTo_eq_nil (h : s.Sound added log) {i : Nat} (hi : s.bench.joints.length ≤ i) :
    sentTo i log = [] := by
  unfold sentTo
  rw [List.filter_eq_nil_iff.mpr, List.map_nil]
  intro c hc
  have hlt := h.index_lt (h.sent c hc)
  exact mt of_decide_eq_true (hlt.trans_le hi).ne

/-- A new joint comes last: if its name was taken, it stays as it is, and if not, no handle and no
command is concerned. -/
theorem add (h : s.Sound added log) (name : String) (x : α) :
    (s.next (.add name x)).Sound (added ++ [(name, x)]) log := by
  have hlength := h.length_joints
  have hnames := Bench.names_add s.bench name x
  constructor
  case names =>
    show (s.bench.add name x).names = _
    rw [hnames, h.names, List.map_append]
    rfl
  case held =>
    intro j hj
    refine Bench.handle?_of_prefix ?_ (h.held j hj)
    exact hnames ▸ List.prefix_append _ _
  case sent => exact h.sent
  case shadowed =>
    intro i other y hi hshadowed
    change ¬ Earliest (s.bench.add name x).names other i at hshadowed
    rw [hnames] at hshadowed
    refine getElem?_concat_eq_some_iff.mpr ?_
    obtain hi | ⟨rfl, hnew⟩ := getElem?_concat_eq_some_iff.mp hi
    · have hlt : i < s.bench.names.length := by
        rw [Bench.length_names, hlength]
        exact (List.getElem?_eq_some_iff.mp hi).1
      exact .inl (h.shadowed hi (mt (earliest_append hlt).mpr hshadowed))
    · cases hnew
      exact .inr ⟨hlength.symm, rfl⟩
  case booked =>
    intro i joint hjoint
    obtain hjoint | ⟨rfl, rfl⟩ := getElem?_concat_eq_some_iff.mp hjoint
    · exact h.booked hjoint
    · rw [h.sentTo_eq_nil le_rfl]
      exact ⟨rfl, rfl⟩
  case total => exact (Bench.totalWrites_add s.bench name x).trans h.total

/-- The handle that is kept, if one is, is what its name gives. -/
theorem find (h : s.Sound added log) (name : String) :
    (s.next (.find name)).Sound added log := by
  refine { h with held := ?_, sent := ?_ }
  · intro j hj
    obtain hj | hj := List.mem_append.mp hj
    · exact h.held j hj
    · have hfound := Option.mem_toList.mp hj
      obtain rfl := (Bench.joint_of_handle? hfound).1
      exact hfound
  · exact fun c hc => List.mem_append_left _ (h.sent c hc)

/-- A command is written down at the place of its handle, where no joint is shadowed. -/
theorem command_through (h : s.Sound added log) {j : BenchHandle} (hj : j ∈ s.handles) (x : α) :
    Sound { s with bench := s.bench.setCommand j x } added (log ++ [(j, x)]) := by
  have hnames := Bench.names_setCommand s.bench j x
  constructor
  case names => exact hnames.trans h.names
  case held => exact fun _ => h.held_of_names hnames
  case sent =>
    intro c hc
    obtain hc | hc := List.mem_append.mp hc
    · exact h.sent c hc
    · cases List.mem_singleton.mp hc
      exact hj
  case shadowed =>
    intro i name y hi hshadowed
    change ¬ Earliest (s.bench.setCommand j x).names name i at hshadowed
    rw [hnames] at hshadowed
    -- a handle is at the earliest place of its name, so never at a joint that is shadowed
    have hne : j.index ≠ i := by
      rintro rfl
      have hname : s.bench.names[j.index]? = some name := by
        rw [h.names, List.getElem?_map, hi]
        rfl
      exact hshadowed ((h.earliest hj).of_name hname)
    exact (Bench.joint_setCommand s.bench j x i).trans ((if_neg hne).trans (h.shadowed hi hshadowed))
  case booked =>
    intro i joint hjoint
    change (s.bench.setCommand j x).joints[i]? = some joint at hjoint
    rw [Bench.joint_setCommand] at hjoint
    rw [sentTo_concat]
    by_cases hi : j.index = i
    · rw [if_pos hi] at hjoint
      obtain ⟨before, hbefore, rfl⟩ := Option.map_eq_some_iff.mp hjoint
      rw [if_pos hi, List.getLast?_concat, List.length_append]
      exact ⟨rfl, congrArg (· + 1) (h.booked hbefore).2⟩
    · rw [if_neg hi] at hjoint
      rw [if_neg hi, List.append_nil]
      exact h.booked hjoint
  case total =>
    rw [List.length_append]
    exact (Bench.totalWrites_setCommand (h.index_lt hj) x).trans (congrArg (· + 1) h.total)

/-- What is not written down leaves the books as they are, if it keeps off the joints that are
shadowed and have no command. -/
theorem of_accounts (h : s.Sound added log) {b : Bench α}
    (haccounts : b.joints.map BenchJoint.account = s.bench.joints.map BenchJoint.account)
    (hkept : ∀ {i joint}, s.bench.joints[i]? = some joint →
      ¬ Earliest s.bench.names joint.name i → joint.command = none → b.joints[i]? = some joint) :
    Sound { s with bench := b } added log := by
  have hnames := Bench.names_of_accounts haccounts
  constructor
  case names => exact hnames.trans h.names
  case held => exact fun _ => h.held_of_names hnames
  case sent => exact h.sent
  case shadowed =>
    intro i name x hi hshadowed
    change ¬ Earliest b.names name i at hshadowed
    rw [hnames] at hshadowed
    exact hkept (h.shadowed hi hshadowed) hshadowed rfl
  case booked =>
    intro i joint hjoint
    have hat := congrArg (·[i]?) haccounts
    simp only [List.getElem?_map, hjoint] at hat
    obtain ⟨before, hbefore, haccount⟩ := Option.map_eq_some_iff.mp hat.symm
    obtain ⟨hcommand, hwrites⟩ := h.booked hbefore
    exact ⟨(congrArg (·.2.1) haccount).symm.trans hcommand,
      (congrArg (·.2.2) haccount).symm.trans hwrites⟩
  case total => exact (Bench.totalWrites_of_accounts haccounts).trans h.total

theorem measure (h : s.Sound added log) (name : String) (x v : α) :
    (s.next (.measure name x v)).Sound added log := by
  refine h.of_accounts (Bench.accounts_setMeasured s.bench name x v) ?_
  intro i joint hjoint hshadowed _
  rw [Bench.joint_setMeasured, if_neg, hjoint]
  exact fun hi => hshadowed (hi.of_name (Bench.name_of_joint hjoint))

theorem step (h : s.Sound added log) (kind : CommandKind) (period : Period) :
    (s.next (.step kind period)).Sound added log :=
  h.of_accounts (Bench.accounts_step s.bench kind period) fun hjoint _ hcommand =>
    Bench.joint_step_of_no_command hjoint hcommand kind period

/-- **Every call is booked**: the joint that it adds, if it adds one, and the command that it sends,
if it sends one. -/
theorem next (h : s.Sound added log) (call : BenchCall α) :
    (s.next call).Sound (added ++ call.added?.toList) (log ++ (s.sent? call).toList) := by
  cases call with
  | add name x => simpa [BenchCall.added?, sent?] using h.add name x
  | find name => simpa [BenchCall.added?, sent?] using h.find name
  | command k x =>
    cases hk : s.handles[k]? with
    | none => simpa [BenchCall.added?, sent?, BenchSession.next, hk] using h
    | some j =>
      simpa [BenchCall.added?, sent?, BenchSession.next, hk] using
        h.command_through (List.mem_of_getElem? hk) x
  | measure name x v => simpa [BenchCall.added?, sent?] using h.measure name x v
  | step kind period => simpa [BenchCall.added?, sent?] using h.step kind period

/-- What is seen through a handle is the joint that its name means. -/
theorem read (h : s.Sound added log) {j : BenchHandle} (hj : j ∈ s.handles) :
    ∃ joint, s.bench.joint? j.name = some joint ∧ s.bench.joints[j.index]? = some joint ∧
      JointBus.position s.bench j = joint.position ∧
        JointBus.velocity s.bench j = joint.velocity := by
  obtain ⟨-, joint, hjoint, -⟩ := Bench.joint_of_handle? (h.held j hj)
  refine ⟨joint, Bench.joint?_eq_some_iff.mpr ⟨_, h.earliest hj, hjoint⟩, hjoint, ?_, ?_⟩
  · show (s.bench.joints[j.index]?.map BenchJoint.position).getD 0 = _
    rw [hjoint]
    rfl
  · show (s.bench.joints[j.index]?.map BenchJoint.velocity).getD 0 = _
    rw [hjoint]
    rfl

/-- What is sent through a handle is for the joint that its name means. -/
theorem told (h : s.Sound added log) {j : BenchHandle} (hj : j ∈ s.handles) (x : α) (i : Nat) :
    (s.bench.setCommand j x).joints[i]? =
      if Earliest s.bench.names j.name i then s.bench.joints[i]?.map (BenchJoint.told x)
      else s.bench.joints[i]? := by
  have hfirst := h.earliest hj
  rw [Bench.joint_setCommand]
  exact if_congr ⟨fun hi => hi ▸ hfirst, hfirst.unique⟩ rfl rfl

theorem positions (h : s.Sound added log) {i : Nat} {name : String} {x : α}
    (hi : added[i]? = some (name, x)) : s.bench.positions[i]? =
      if Earliest s.bench.names name i then (s.bench.joint? name).map BenchJoint.position
      else some x := by
  rw [Bench.positions, List.getElem?_map]
  by_cases hfirst : Earliest s.bench.names name i
  · have hlt : i < s.bench.joints.length := by
      rw [h.length_joints]
      exact (List.getElem?_eq_some_iff.mp hi).1
    have hjoint := List.getElem?_eq_getElem hlt
    rw [if_pos hfirst, hjoint, Bench.joint?_eq_some_iff.mpr ⟨i, hfirst, hjoint⟩]
  · rw [if_neg hfirst, h.shadowed hi hfirst]
    rfl

theorem joint_of_sent (h : s.Sound added log) {i : Nat} {c : α}
    (hlast : (sentTo i log).getLast? = some c) :
    ∃ joint, s.bench.joints[i]? = some joint ∧ joint.command = some c := by
  rcases Nat.lt_or_ge i s.bench.joints.length with hi | hi
  · have hjoint := List.getElem?_eq_getElem hi
    exact ⟨_, hjoint, (h.booked hjoint).1.trans hlast⟩
  · rw [h.sentTo_eq_nil hi] at hlast
    cases hlast

end Sound

/-- **The books are kept whatever is done at a bench.** -/
theorem sound_after [Scalar α] (calls : List (BenchCall α)) :
    (start.after calls).Sound (added calls) (start.log calls) := by
  induction calls using List.reverseRecOn with
  | nil => exact .start
  | append_singleton calls call ih =>
    rw [after_concat, log_concat, added, List.filterMap_append]
    have hadded : [call].filterMap BenchCall.added? = call.added?.toList := by
      rw [List.filterMap_cons, List.filterMap_nil]
      cases call.added? <;> rfl
    rw [hadded]
    exact ih.next call

/-! ## what a bench does -/

/-- **What is true of a bench** to which these joints have been added and these commands sent. -/
structure KeepsBooks (s : BenchSession Float) (added : List (String × Float))
    (log : List (BenchHandle × Float)) : Prop extends s.Sound added log where
  /-- A name means the joint at its earliest place, for whatever it is used. -/
  named : ∀ name joint, s.bench.joint? name = some joint ↔
    ∃ i, Earliest s.bench.names name i ∧ s.bench.joints[i]? = some joint
  found : ∀ name h, s.bench.handle? name = some h ↔
    h.name = name ∧ Earliest s.bench.names name h.index
  /-- It is told whether there is a joint to be measured. -/
  answered : ∀ name x v, (s.bench.measure name x v).1 = true ↔ name ∈ added.map Prod.fst
  measured : ∀ name x v i, (s.bench.setMeasured name x v).joints[i]? =
    if Earliest s.bench.names name i then
      s.bench.joints[i]?.map fun joint => { joint with position := x, velocity := v }
    else s.bench.joints[i]?
  /-- A handle is one of the joint that its name means, however long it has been kept. -/
  read : ∀ h ∈ s.handles, ∃ joint, s.bench.joint? h.name = some joint ∧
    s.bench.joints[h.index]? = some joint ∧ JointBus.position s.bench h = joint.position ∧
      JointBus.velocity s.bench h = joint.velocity
  told : ∀ h ∈ s.handles, ∀ x i, (s.bench.setCommand h x).joints[i]? =
    if Earliest s.bench.names h.name i then s.bench.joints[i]?.map (BenchJoint.told x)
    else s.bench.joints[i]?
  /-- There is a position for every joint that has been added, in this order. -/
  length_positions : s.bench.positions.length = added.length
  positions : ∀ i name x, added[i]? = some (name, x) → s.bench.positions[i]? =
    if Earliest s.bench.names name i then (s.bench.joint? name).map BenchJoint.position else some x
  /-- The servo writes nothing down and keeps off joints without a command. -/
  stepped : ∀ kind period, (s.bench.step kind period).joints.map BenchJoint.account =
    s.bench.joints.map BenchJoint.account
  idle : ∀ kind period i joint, s.bench.joints[i]? = some joint → sentTo i log = [] →
    (s.bench.step kind period).joints[i]? = some joint
  /-- A joint that is told a position is there after one step, and rests from the next one on. -/
  reached : ∀ period i c, (sentTo i log).getLast? = some c →
    (s.bench.step .position period).positions[i]? = some c
  rests : ∀ period again i joint c, s.bench.joints[i]? = some joint →
    (sentTo i log).getLast? = some c → c.isFinite = true → again.isZero = false →
      ((s.bench.step .position period).step .position again).joints[i]? =
        some { joint with position := c, velocity := 0 }

/-- **The books of a bench are kept**, whatever is done at it and in whatever order. -/
theorem keepsBooks_after (calls : List (BenchCall Float)) :
    (start.after calls).KeepsBooks (added calls) (start.log calls) := by
  have h := sound_after calls
  constructor
  case toSound => exact h
  case named => exact fun _ _ => Bench.joint?_eq_some_iff
  case found => exact fun _ _ => Bench.handle?_eq_some_iff
  case answered =>
    intro name x v
    rw [Bench.measure_fst, h.names]
  case measured => exact Bench.joint_setMeasured _
  case read => exact fun _ hj => h.read hj
  case told => exact fun _ hj => h.told hj
  case length_positions => exact (List.length_map _).trans h.length_joints
  case positions => exact fun _ _ _ hi => h.positions hi
  case stepped => exact Bench.accounts_step _
  case idle =>
    intro kind period i joint hjoint hnone
    refine Bench.joint_step_of_no_command hjoint ?_ kind period
    rw [(h.booked hjoint).1, hnone, List.getLast?_nil]
  case reached =>
    intro period i c hlast
    obtain ⟨joint, hjoint, hcommand⟩ := h.joint_of_sent hlast
    rw [Bench.positions, List.getElem?_map, Bench.joint_step_position hjoint hcommand]
    rfl
  case rests =>
    intro period again i joint c hjoint hlast hc hagain
    exact Bench.step_step_position hjoint ((h.booked hjoint).1.trans hlast) hc period hagain

/-- Two handles of one name share the joint that was added first, also if the second one is asked
for after another joint has got the name. -/
example : (start.after [.add "slide" 0.5, .find "slide", .add "slide" 0.25, .find "slide",
    .command 0 1.0, .command 1 2.0] : BenchSession Float).bench.joints.map BenchJoint.account =
      [("slide", some 2.0, 2), ("slide", none, 0)] := rfl

end BenchSession

end ArmServo
