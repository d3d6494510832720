import ArmServo.Config.Writer
import ArmServo.Proofs.Toml.Reader
import ArmServo.Proofs.Toml.Table

/-!
# The statements of a configuration

The statements that are written for a configuration without undefined numbers can all be read back,
and they build the table that one expects: the plain parameters, the tables of the damping and of the
gains, and the array of the segments, each with its own limits.

Main statements: `isReadable_statements`, `ofStatements?_statements`.
-/

namespace ArmServo

open Toml (Atom Content Entries Key Statement Value)

def Limits.numbers : Limits Float → List Float
  | .free => []
  | .range lower upper => [lower, upper]

def SegmentEntry.numbers (s : SegmentEntry Float) : List Float :=
  s.axis.toList ++ s.xyz.toList ++ s.rpy.toList ++ s.limits.numbers

namespace Config

/-- All numbers of a configuration. -/
def numbers (c : Config Float) : List Float :=
  c.periodMs :: c.damping :: (c.gains.toList.flatMap Pid.Gains.toList ++
    c.segments.flatMap SegmentEntry.numbers)

/-! ## the statements -/

/-- The names of parameters and tables. -/
def names : List String :=
  ["root_frame", "base_frame", "tip_frame", "joints", "command_type", "period_ms", "solver",
    "damping", "gains", "p", "i", "d", "i_clamp", "segments", "joint", "link", "kind", "axis",
    "origin_xyz", "origin_rpy", "limits", "lower", "upper"] ++ Axis.all.map Axis.name

theorem isBareName_of_mem_names : ∀ name ∈ names, Toml.IsBareName name := by
  simp [names, Axis.all, Axis.name, Toml.IsBareName, Toml.isBareChar, Char.isAlphanum, Char.isAlpha,
    Char.isLower]

theorem isBare_plain {name : String} (h : name ∈ names) : Key.IsBare ⟨[], name⟩ where
  names n hn := by
    rw [List.mem_singleton] at hn
    exact hn ▸ isBareName_of_mem_names name h
  depth := by simp [Toml.maximalDepth]

theorem isBare_inside {outer name : String} (houter : outer ∈ names) (h : name ∈ names) :
    Key.IsBare ⟨[outer], name⟩ where
  names n hn := by
    rcases List.mem_cons.mp hn with rfl | hn
    · exact isBareName_of_mem_names n h
    · rw [List.mem_singleton] at hn
      exact hn ▸ isBareName_of_mem_names outer houter
  depth := by simp [Toml.maximalDepth]

theorem isReadable_textLine {name : String} (h : name ∈ names) (s : String) :
    (textLine name s).IsReadable := ⟨isBare_plain h, trivial⟩

theorem isReadable_numberLine {name : String} (h : name ∈ names) {x : Float}
    (hx : x.isNaN = false) : (numberLine name x).IsReadable := ⟨isBare_plain h, hx⟩

theorem isReadable_vec3Line {name : String} (h : name ∈ names) {v : Vec3 Float}
    (hv : ∀ x ∈ v.toList, x.isNaN = false) : (vec3Line name v).IsReadable := by
  refine ⟨isBare_plain h, fun a ha => ?_⟩
  obtain ⟨x, hx, rfl⟩ := List.mem_map.mp ha
  exact hv x hx

theorem name_mem_names (k : Axis) : k.name ∈ names := by
  cases k <;> simp [names, Axis.all]

theorem isReadable_gainsStatements (k : Axis) {g : Pid.Gains Float}
    (h : ∀ x ∈ g.toList, x.isNaN = false) : ∀ s ∈ gainsStatements k g, s.IsReadable := by
  simp only [Pid.Gains.toList, List.forall_mem_cons] at h
  obtain ⟨hp, hi, hd, hclamp, -⟩ := h
  unfold gainsStatements
  simp only [List.forall_mem_cons]
  exact ⟨isBare_inside (by simp [names]) (name_mem_names k),
    isReadable_numberLine (by simp [names]) hp, isReadable_numberLine (by simp [names]) hi,
    isReadable_numberLine (by simp [names]) hd, isReadable_numberLine (by simp [names]) hclamp,
    nofun⟩

theorem isReadable_limitsStatements {l : Limits Float} (h : ∀ x ∈ l.numbers, x.isNaN = false) :
    ∀ s ∈ limitsStatements l, s.IsReadable := by
  cases l with
  | free => nofun
  | range lower upper =>
    simp only [Limits.numbers, List.forall_mem_cons] at h
    obtain ⟨hlower, hupper, -⟩ := h
    unfold limitsStatements
    simp only [List.forall_mem_cons]
    exact ⟨isBare_inside (by simp [names]) (by simp [names]),
      isReadable_numberLine (by simp [names]) hlower,
      isReadable_numberLine (by simp [names]) hupper, nofun⟩

theorem isReadable_segmentStatements {s : SegmentEntry Float}
    (h : ∀ x ∈ s.numbers, x.isNaN = false) : ∀ t ∈ segmentStatements s, t.IsReadable := by
  simp only [SegmentEntry.numbers, List.forall_mem_append] at h
  obtain ⟨⟨⟨haxis, hxyz⟩, hrpy⟩, hlimits⟩ := h
  unfold segmentStatements
  simp only [List.forall_mem_append, List.forall_mem_cons]
  exact ⟨⟨isBare_plain (by simp [names]), isReadable_textLine (by simp [names]) _,
    isReadable_textLine (by simp [names]) _, isReadable_textLine (by simp [names]) _,
    isReadable_vec3Line (by simp [names]) haxis, isReadable_vec3Line (by simp [names]) hxyz,
    isReadable_vec3Line (by simp [names]) hrpy, nofun⟩, isReadable_limitsStatements hlimits⟩

/-- Every statement of a configuration without undefined numbers can be read back. -/
theorem isReadable_statements {c : Config Float} (h : ∀ x ∈ c.numbers, x.isNaN = false) :
    ∀ s ∈ c.statements, s.IsReadable := by
  simp only [numbers, List.forall_mem_cons, List.forall_mem_append, List.forall_mem_flatMap] at h
  obtain ⟨hperiod, hdamping, hgains, hsegments⟩ := h
  unfold statements
  simp only [List.forall_mem_append]
  refine ⟨⟨⟨⟨⟨⟨⟨?root, ?frames⟩, ?kind⟩, ?period⟩, ?empty⟩, ?damping⟩, ?gains⟩, ?segments⟩
  case root =>
    cases c.rootFrame with
    | none => nofun
    | some s => exact List.forall_mem_singleton.mpr (isReadable_textLine (by simp [names]) s)
  case frames =>
    simp only [List.forall_mem_cons]
    refine ⟨isReadable_textLine (by simp [names]) _, isReadable_textLine (by simp [names]) _,
      ⟨isBare_plain (by simp [names]), fun a ha => ?_⟩, nofun⟩
    obtain ⟨s, -, rfl⟩ := List.mem_map.mp ha
    trivial
  case kind =>
    cases c.commandKind with
    | none => nofun
    | some k => exact List.forall_mem_singleton.mpr (isReadable_textLine (by simp [names]) _)
  case period =>
    exact List.forall_mem_singleton.mpr (isReadable_numberLine (by simp [names]) hperiod)
  case empty =>
    split
    · exact List.forall_mem_singleton.mpr ⟨isBare_plain (by simp [names]), nofun⟩
    · nofun
  case damping =>
    simp only [List.forall_mem_cons]
    exact ⟨isBare_plain (by simp [names]), isReadable_numberLine (by simp [names]) hdamping, nofun⟩
  case gains =>
    intro s hs
    obtain ⟨k, -, hs⟩ := List.mem_flatMap.mp hs
    refine isReadable_gainsStatements k (hgains _ ?_) s hs
    rw [Pid.SpatialGains.toList_eq_map]
    exact List.mem_map_of_mem (by cases k <;> decide)
  case segments =>
    intro t ht
    obtain ⟨s, hs, ht⟩ := List.mem_flatMap.mp ht
    exact isReadable_segmentStatements (hsegments s hs) t ht

/-! ## the table -/

def textEntry (name s : String) : String × Value := (name, .text s)

def numberEntry (name : String) (x : Float) : String × Value := (name, .number x)

def vec3Entry (name : String) (v : Vec3 Float) : String × Value :=
  (name, .array false (v.toList.map Value.number))

/-- The parameters without a header. -/
def plainEntries (c : Config Float) : Entries :=
  (c.rootFrame.map (textEntry "root_frame")).toList ++
  [textEntry "base_frame" c.baseFrame, textEntry "tip_frame" c.tipFrame,
    ("joints", .array false (c.joints.map Value.text))] ++
  (c.commandKind.map fun k => textEntry "command_type" k.name).toList ++
  [numberEntry "period_ms" c.periodMs] ++
  (if c.segments.isEmpty then [("segments", .array false [])] else [])

def solverEntries (c : Config Float) : Entries := [numberEntry "damping" c.damping]

def gainsEntries (g : Pid.Gains Float) : Entries :=
  [numberEntry "p" g.p, numberEntry "i" g.i, numberEntry "d" g.d, numberEntry "i_clamp" g.iClamp]

def axesTables (gains : Pid.SpatialGains Float) : List (String × Entries) :=
  Axis.all.map fun k => (k.name, gainsEntries (gains.get k))

def segmentEntries (s : SegmentEntry Float) : Entries :=
  [textEntry "joint" s.joint, textEntry "link" s.link, textEntry "kind" s.kind.name,
    vec3Entry "axis" s.axis, vec3Entry "origin_xyz" s.xyz, vec3Entry "origin_rpy" s.rpy]

def limitsEntries (lower upper : Float) : Entries :=
  [numberEntry "lower" lower, numberEntry "upper" upper]

def segmentTable (s : SegmentEntry Float) : Entries :=
  segmentEntries s ++
    match s.limits with
    | .free => []
    | .range lower upper => [("limits", .table .header (limitsEntries lower upper))]

def segmentValue (s : SegmentEntry Float) : Value := .table .header (segmentTable s)

/-- What precedes the gains. -/
def firstEntries (c : Config Float) : Entries :=
  c.plainEntries ++ [("solver", .table .header c.solverEntries)]

def axesValue (gains : Pid.SpatialGains Float) : Value :=
  .table .implied ((axesTables gains).map fun t => (t.1, .table .header t.2))

/-- The table that describes a configuration. -/
def entries (c : Config Float) : Entries :=
  Entries.withValue (c.firstEntries ++ [("gains", axesValue c.gains)]) "segments"
    (.array true (c.segments.map segmentValue))

def segmentBlocks (s : SegmentEntry Float) : List Toml.Block :=
  Entries.elementBlock ⟨[], "segments"⟩ (segmentEntries s) ::
    match s.limits with
    | .free => []
    | .range lower upper =>
      [Entries.tableBlock ⟨["segments"], "limits"⟩ (limitsEntries lower upper)]

/-- The blocks under the headers. -/
def blocks (c : Config Float) : List Toml.Block :=
  Entries.tableBlock ⟨[], "solver"⟩ c.solverEntries ::
    ((axesTables c.gains).map (fun t => Entries.tableBlock ⟨["gains"], t.1⟩ t.2) ++
      c.segments.flatMap segmentBlocks)

theorem map_segmentStatements (s : SegmentEntry Float) :
    (segmentStatements s).map (Statement.map Content.value) =
      (segmentBlocks s).flatMap Toml.Block.statements := by
  unfold segmentStatements segmentBlocks
  cases s.limits with
  | free => rfl
  | range lower upper => rfl

/-- The statements without a header. -/
def plainStatements (c : Config Float) : List (Statement Content) :=
  (c.rootFrame.map (textLine "root_frame")).toList ++
  [textLine "base_frame" c.baseFrame, textLine "tip_frame" c.tipFrame,
    .assign ⟨[], "joints"⟩ (.array (c.joints.map Atom.text))] ++
  (c.commandKind.map fun k => textLine "command_type" k.name).toList ++
  [numberLine "period_ms" c.periodMs] ++
  (if c.segments.isEmpty then [.assign ⟨[], "segments"⟩ (.array [])] else [])

theorem map_plainStatements (c : Config Float) :
    c.plainStatements.map (Statement.map Content.value) =
      Toml.assignmentStatements (Toml.lines c.plainEntries) := by
  have hjoints : (c.joints.map Atom.text).map Atom.value = c.joints.map Value.text := by
    rw [List.map_map]
    rfl
  unfold plainStatements plainEntries Toml.lines Toml.assignmentStatements
  cases c.rootFrame <;> cases c.commandKind <;> cases c.segments.isEmpty <;>
    simp [Statement.map, textLine, textEntry, numberLine, numberEntry, Content.value, Atom.value,
      hjoints]

theorem map_statements (c : Config Float) :
    c.statements.map (Statement.map Content.value) =
      Toml.assignmentStatements (Toml.lines c.plainEntries) ++
        c.blocks.flatMap Toml.Block.statements := by
  have hstatements : c.statements = c.plainStatements ++
      [.table ⟨[], "solver"⟩, numberLine "damping" c.damping] ++
      Axis.all.flatMap (fun k => gainsStatements k (c.gains.get k)) ++
      c.segments.flatMap segmentStatements := rfl
  have hgains : (Axis.all.flatMap fun k => gainsStatements k (c.gains.get k)).map
      (Statement.map Content.value) =
      ((axesTables c.gains).map fun t => Entries.tableBlock ⟨["gains"], t.1⟩ t.2).flatMap
        Toml.Block.statements := rfl
  have hsegments : (c.segments.flatMap segmentStatements).map (Statement.map Content.value) =
      (c.segments.flatMap segmentBlocks).flatMap Toml.Block.statements := by
    rw [List.map_flatMap, List.flatMap_assoc]
    simp only [map_segmentStatements]
  unfold blocks
  rw [hstatements, List.map_append, List.map_append, List.map_append, map_plainStatements, hgains,
    hsegments, List.flatMap_cons, List.flatMap_append, List.append_assoc, List.append_assoc]
  rfl

theorem keys_plainEntries (c : Config Float) :
    c.plainEntries.keys =
      (c.rootFrame.map fun _ => "root_frame").toList ++ ["base_frame", "tip_frame", "joints"] ++
      (c.commandKind.map fun _ => "command_type").toList ++ ["period_ms"] ++
      (if c.segments.isEmpty then ["segments"] else []) := by
  unfold plainEntries Entries.keys
  cases c.rootFrame <;> cases c.commandKind <;> cases c.segments.isEmpty <;> rfl

theorem nodup_keys_plainEntries (c : Config Float) : c.plainEntries.keys.Nodup := by
  rw [keys_plainEntries]
  cases c.rootFrame <;> cases c.commandKind <;> cases c.segments.isEmpty <;> simp

theorem keys_segmentEntries (s : SegmentEntry Float) : (segmentEntries s).keys =
    ["joint", "link", "kind", "axis", "origin_xyz", "origin_rpy"] := rfl

theorem nodup_keys_limitsEntries (lower upper : Float) : (limitsEntries lower upper).keys.Nodup := by
  show ["lower", "upper"].Nodup
  simp

/-- A segment under its header is one more element of the array, with its limits in it. -/
theorem foldlM_add_segment {es : Entries} (hes : "segments" ∉ es.keys) (s : SegmentEntry Float)
    (items : List Value) :
    (segmentBlocks s).foldlM Entries.add (es.withValue "segments" (.array true items)) =
      some (es.withValue "segments" (.array true (items ++ [segmentValue s]))) := by
  have hkeys : (segmentEntries s).keys.Nodup := by simp [keys_segmentEntries]
  have hnonempty : (Value.array true (items ++ [segmentValue s])).isEmpty = false := by
    cases items <;> rfl
  unfold segmentBlocks
  rw [List.foldlM_cons, Entries.add_elementBlock, Entries.openElement_next hes hkeys,
    Entries.withValue, hnonempty, if_neg Bool.false_ne_true]
  unfold segmentValue segmentTable
  cases s.limits with
  | free => simp
  | range lower upper =>
    have hlimits : "limits" ∉ (segmentEntries s).keys := by simp [keys_segmentEntries]
    simp [Entries.add_tableBlock,
      Entries.openTable_last hes hlimits (nodup_keys_limitsEntries lower upper)]

theorem foldlM_add_segments {es : Entries} (hes : "segments" ∉ es.keys)
    (segments : List (SegmentEntry Float)) (items : List Value) :
    (segments.flatMap segmentBlocks).foldlM Entries.add
        (es.withValue "segments" (.array true items)) =
      some (es.withValue "segments" (.array true (items ++ segments.map segmentValue))) := by
  induction segments generalizing items with
  | nil => simp only [List.map_nil, List.append_nil]; rfl
  | cons s segments ih =>
    rw [List.flatMap_cons, List.foldlM_append, foldlM_add_segment hes]
    simp only [Option.bind_eq_bind, Option.bind_some, ih, List.map_cons, List.append_assoc]
    rfl

theorem new_plainEntries {c : Config Float} {name : String}
    (h : name ∉ ["root_frame", "base_frame", "tip_frame", "joints", "command_type", "period_ms"])
    (hsegments : name ≠ "segments" ∨ c.segments.isEmpty = false) : name ∉ c.plainEntries.keys := by
  rw [keys_plainEntries]
  cases c.rootFrame <;> cases c.commandKind <;> cases hempty : c.segments.isEmpty <;> simp_all

theorem nodup_keys_axesTables (gains : Pid.SpatialGains Float) :
    ((axesTables gains).map Prod.fst).Nodup := by
  show (Axis.all.map Axis.name).Nodup
  simp [Axis.all, Axis.name]

theorem nodup_keys_gainsEntries (g : Pid.Gains Float) : (gainsEntries g).keys.Nodup := by
  show ["p", "i", "d", "i_clamp"].Nodup
  simp

theorem foldlM_add_gains {es : Entries} (hes : "gains" ∉ es.keys) (gains : Pid.SpatialGains Float) :
    ((axesTables gains).map fun t => Entries.tableBlock ⟨["gains"], t.1⟩ t.2).foldlM Entries.add es =
      some (es ++ [("gains", axesValue gains)]) := by
  refine Entries.foldlM_add_inside hes [] (nodup_keys_axesTables gains) ?_
  intro t ht
  obtain ⟨k, -, rfl⟩ := List.mem_map.mp ht
  exact nodup_keys_gainsEntries _

/-- **The statements build the table** of the configuration. -/
theorem ofStatements?_statements (c : Config Float) :
    Entries.ofStatements? (c.statements.map (Statement.map Content.value)) = some c.entries := by
  have hplain : Entries.assignAll [] (Toml.lines c.plainEntries) = some c.plainEntries :=
    Entries.assignAll_nil_lines c.nodup_keys_plainEntries
  have hsolver : "solver" ∉ c.plainEntries.keys := new_plainEntries (by simp) (.inl (by simp))
  have hdamping : c.solverEntries.keys.Nodup := List.nodup_singleton _
  have hgains : "gains" ∉ c.firstEntries.keys := by
    rw [firstEntries, Entries.keys_append, List.mem_append, not_or]
    refine ⟨new_plainEntries (by simp) (.inl (by simp)), ?_⟩
    show "gains" ∉ ["solver"]
    simp
  have hsegments : (c.segments.flatMap segmentBlocks).foldlM Entries.add
      (c.firstEntries ++ [("gains", axesValue c.gains)]) = some c.entries := by
    unfold entries
    cases hc : c.segments with
    | nil => rfl
    | cons s segments =>
      rw [← hc]
      refine foldlM_add_segments ?_ c.segments []
      rw [firstEntries, Entries.keys_append, Entries.keys_append, List.mem_append, List.mem_append,
        not_or, not_or]
      refine ⟨⟨new_plainEntries (by simp) (.inr (by rw [hc]; rfl)), ?_⟩, ?_⟩
      · show "segments" ∉ ["solver"]
        simp
      · show "segments" ∉ ["gains"]
        simp
  rw [map_statements, Entries.ofStatements?_blocks, hplain, Option.bind_some, blocks,
    List.foldlM_cons, Entries.add_tableBlock, Entries.openTable_new hsolver hdamping]
  show List.foldlM Entries.add c.firstEntries _ = _
  rw [List.foldlM_append, foldlM_add_gains hgains]
  exact hsegments

end Config

end ArmServo
