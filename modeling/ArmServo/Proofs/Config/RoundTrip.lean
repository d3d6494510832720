import ArmServo.Config.Reader
import ArmServo.Proofs.Config.Statements

/-!
# Configurations read back

The text that is written for a configuration without undefined numbers is read as the same
configuration: its statements read back one by one, they build the table `Config.entries`, and every
record of that table is read as the part of the configuration that it was written for.

Main statement: `reads_back`.
-/

namespace ArmServo.Config

open Toml (Entries Value)

/-! ## the records -/

theorem readVec3?_entry (v : Vec3 Float) :
    readVec3? (.array false (v.toList.map Value.number)) = some v := rfl

theorem choice?_commandKind (k : CommandKind) :
    Value.choice? CommandKind.byName (.text k.name) = some k := by
  cases k <;> simp [Value.choice?, CommandKind.byName, CommandKind.name, List.lookup]

theorem choice?_jointKind (k : JointKind) :
    Value.choice? JointKind.byName (.text k.name) = some k := by
  cases k <;> simp [Value.choice?, JointKind.byName, JointKind.name, List.lookup]

theorem list?_map {β : Type} {read : Value → Option β} {value : β → Value}
    (h : ∀ b, read (value b) = some b) (growing : Bool) (bs : List β) :
    Value.list? read (.array growing (bs.map value)) = some bs := by
  induction bs with
  | nil => rfl
  | cons b bs ih =>
    have hrest : (bs.map value).mapM read = some bs := ih
    show ((b :: bs).map value).mapM read = _
    rw [List.map_cons, List.mapM_cons, h, hrest]
    rfl

theorem readLimits?_entries (lower upper : Float) :
    readLimits? (.table .header (limitsEntries lower upper)) = some (.range lower upper) := by
  have hfields : Value.fields? ["lower", "upper"] (.table .header (limitsEntries lower upper)) =
      some (limitsEntries lower upper).fields := Entries.fields?_table (fun _ h => h) _
  have hread : ∀ name x, numberEntry name x ∈ limitsEntries lower upper →
      (limitsEntries lower upper).fields.required? name Value.number? = some x :=
    fun name x h => Entries.required?_fields (nodup_keys_limitsEntries lower upper) h Value.number?
  unfold readLimits?
  rw [hfields]
  simp only [Option.bind_eq_bind, Option.bind_some, hread "lower" lower (by simp [limitsEntries]),
    hread "upper" upper (by simp [limitsEntries])]

theorem readDamping?_entries (c : Config Float) :
    readDamping? (.table .header c.solverEntries) = some c.damping := by
  have hkeys : c.solverEntries.keys.Nodup := List.nodup_singleton _
  have hfields : Value.fields? ["damping"] (.table .header c.solverEntries) =
      some c.solverEntries.fields := Entries.fields?_table (fun _ h => h) _
  unfold readDamping?
  rw [hfields, Option.bind_eq_bind, Option.bind_some,
    Entries.withDefault?_fields (v := .number c.damping) hkeys List.mem_cons_self]
  rfl

theorem readGains?_entries (g : Pid.Gains Float) :
    readGains? (.table .header (gainsEntries g)) = some g := by
  have hfields : Value.fields? ["p", "i", "d", "i_clamp"] (.table .header (gainsEntries g)) =
      some (gainsEntries g).fields := Entries.fields?_table (fun _ h => h) _
  have hread : ∀ name x, numberEntry name x ∈ gainsEntries g →
      (gainsEntries g).fields.withDefault? name 0 Value.number? = some x :=
    fun name x h => Entries.withDefault?_fields (nodup_keys_gainsEntries g) h 0 Value.number?
  unfold readGains?
  rw [hfields]
  simp only [Option.bind_eq_bind, Option.bind_some, hread "p" g.p (by simp [gainsEntries]),
    hread "i" g.i (by simp [gainsEntries]), hread "d" g.d (by simp [gainsEntries]),
    hread "i_clamp" g.iClamp (by simp [gainsEntries])]

theorem readSpatialGains?_value (gains : Pid.SpatialGains Float) : readSpatialGains? (axesValue gains) = some gains := by
  have hfields : Value.fields? (Axis.all.map Axis.name) (axesValue gains) =
      some (Entries.fields ((axesTables gains).map fun t => (t.1, .table .header t.2))) :=
    Entries.fields?_table (fun _ h => h) _
  have hread : ∀ k : Axis, (Entries.fields ((axesTables gains).map fun t =>
      (t.1, .table .header t.2))).withDefault? k.name .zero readGains? = some (gains.get k) := by
    intro k
    rw [Entries.withDefault?_fields (v := .table .header (gainsEntries (gains.get k)))]
    · exact readGains?_entries _
    · exact nodup_keys_axesTables gains
    · cases k <;> simp [axesTables, Axis.all]
  unfold readSpatialGains?
  rw [hfields]
  simp only [Option.bind_eq_bind, Option.bind_some, hread]
  rfl

theorem keys_segmentTable (s : SegmentEntry Float) : (segmentTable s).keys =
    ["joint", "link", "kind", "axis", "origin_xyz", "origin_rpy"] ++
      match s.limits with
      | .free => []
      | .range .. => ["limits"] := by
  unfold segmentTable
  rw [Entries.keys_append, keys_segmentEntries]
  cases s.limits <;> rfl

theorem readLimits_segmentTable (s : SegmentEntry Float) :
    (segmentTable s).fields.withDefault? "limits" .free readLimits? = some s.limits := by
  have hkeys := keys_segmentTable s
  cases hs : s.limits with
  | free =>
    rw [hs] at hkeys
    exact Entries.withDefault?_missing (by simp [hkeys]) _ _
  | range lower upper =>
    rw [hs] at hkeys
    rw [Entries.withDefault?_fields (v := .table .header (limitsEntries lower upper))]
    · exact readLimits?_entries lower upper
    · simp [hkeys]
    · simp [segmentTable, hs]

theorem readSegment?_value (s : SegmentEntry Float) : readSegment? (segmentValue s) = some s := by
  have hkeys : (segmentTable s).keys.Nodup := by
    rw [keys_segmentTable]
    cases s.limits <;> simp
  have hfields : Value.fields? ["joint", "link", "kind", "axis", "origin_xyz", "origin_rpy", "limits"]
      (segmentValue s) = some (segmentTable s).fields := by
    apply Entries.fields?_table
    rw [keys_segmentTable]
    cases s.limits <;> simp
  have hmem : ∀ {e}, e ∈ segmentEntries s → e ∈ segmentTable s :=
    fun h => List.mem_append_left _ h
  have hjoint := Entries.required?_fields hkeys
    (hmem (e := textEntry "joint" s.joint) (by simp [segmentEntries])) Value.text?
  have hlink := Entries.required?_fields hkeys
    (hmem (e := textEntry "link" s.link) (by simp [segmentEntries])) Value.text?
  have hkind := Entries.withDefault?_fields hkeys
    (hmem (e := textEntry "kind" s.kind.name) (by simp [segmentEntries])) .revolute
    (Value.choice? JointKind.byName)
  have haxis := Entries.withDefault?_fields hkeys
    (hmem (e := vec3Entry "axis" s.axis) (by simp [segmentEntries])) .unitZ readVec3?
  have hxyz := Entries.withDefault?_fields hkeys
    (hmem (e := vec3Entry "origin_xyz" s.xyz) (by simp [segmentEntries])) .zero readVec3?
  have hrpy := Entries.withDefault?_fields hkeys
    (hmem (e := vec3Entry "origin_rpy" s.rpy) (by simp [segmentEntries])) .zero readVec3?
  rw [choice?_jointKind] at hkind
  unfold readSegment?
  rw [hfields]
  simp only [Option.bind_eq_bind, Option.bind_some, hjoint, hlink, hkind, haxis, hxyz, hrpy,
    readVec3?_entry, Value.text?, readLimits_segmentTable]

theorem keys_entries (c : Config Float) :
    c.entries.keys = c.plainEntries.keys ++ ["solver", "gains"] ++
      (if c.segments.isEmpty then [] else ["segments"]) := by
  unfold entries Entries.withValue firstEntries
  cases c.segments <;> simp [Value.isEmpty, Entries.keys]

theorem nodup_keys_entries (c : Config Float) : c.entries.keys.Nodup := by
  rw [keys_entries, keys_plainEntries]
  cases c.rootFrame <;> cases c.commandKind <;> cases c.segments.isEmpty <;> simp

theorem mem_entries_of_firstEntries {c : Config Float} {e : String × Value}
    (h : e ∈ c.firstEntries ++ [("gains", axesValue c.gains)]) : e ∈ c.entries := by
  unfold entries Entries.withValue
  split
  · exact h
  · exact List.mem_append_left _ h

theorem mem_entries_of_plainEntries {c : Config Float} {e : String × Value}
    (h : e ∈ c.plainEntries) : e ∈ c.entries :=
  mem_entries_of_firstEntries (by simp [firstEntries, h])

theorem readRootFrame (c : Config Float) :
    c.entries.fields.optional? "root_frame" Value.text? = some c.rootFrame := by
  cases hc : c.rootFrame with
  | none =>
    apply Entries.optional?_missing
    rw [keys_entries, keys_plainEntries, hc]
    cases c.commandKind <;> cases c.segments.isEmpty <;> simp
  | some s =>
    exact Entries.optional?_fields c.nodup_keys_entries (mem_entries_of_plainEntries
      (e := textEntry "root_frame" s) (by simp [plainEntries, hc])) Value.text?

theorem readCommandKind (c : Config Float) :
    c.entries.fields.optional? "command_type" (Value.choice? CommandKind.byName) =
      some c.commandKind := by
  cases hc : c.commandKind with
  | none =>
    apply Entries.optional?_missing
    rw [keys_entries, keys_plainEntries, hc]
    cases c.rootFrame <;> cases c.segments.isEmpty <;> simp
  | some k =>
    rw [Entries.optional?_fields c.nodup_keys_entries (mem_entries_of_plainEntries
      (e := textEntry "command_type" k.name) (by simp [plainEntries, hc])), choice?_commandKind]
    rfl

theorem readSegments (c : Config Float) :
    c.entries.fields.withDefault? "segments" [] (Value.list? readSegment?) = some c.segments := by
  have hmem : ∃ growing, ("segments", .array growing (c.segments.map segmentValue)) ∈ c.entries := by
    cases hc : c.segments with
    | nil => exact ⟨false, mem_entries_of_plainEntries (by simp [plainEntries, hc])⟩
    | cons s segments => exact ⟨true, by simp [entries, Entries.withValue, hc, Value.isEmpty]⟩
  obtain ⟨growing, hmem⟩ := hmem
  rw [Entries.withDefault?_fields c.nodup_keys_entries hmem, list?_map readSegment?_value]

/-- **The table is read** as the configuration. -/
theorem read?_entries (c : Config Float) : read? (.table .header c.entries) = some c := by
  have hkeys := c.nodup_keys_entries
  have hfields : Value.fields? ["root_frame", "base_frame", "tip_frame", "joints", "command_type",
      "period_ms", "solver", "gains", "segments"] (.table .header c.entries) =
        some c.entries.fields := by
    apply Entries.fields?_table
    rw [keys_entries, keys_plainEntries]
    cases c.rootFrame <;> cases c.commandKind <;> cases c.segments.isEmpty <;> simp
  have hbase := Entries.withDefault?_fields hkeys (mem_entries_of_plainEntries
    (e := textEntry "base_frame" c.baseFrame) (by simp [plainEntries])) "" Value.text?
  have htip := Entries.withDefault?_fields hkeys (mem_entries_of_plainEntries
    (e := textEntry "tip_frame" c.tipFrame) (by simp [plainEntries])) "" Value.text?
  have htext : ∀ s, Value.text? (.text s) = some s := fun _ => rfl
  have hlist := list?_map htext false c.joints
  have hjoints := Entries.withDefault?_fields hkeys (mem_entries_of_plainEntries
    (e := ("joints", .array false (c.joints.map Value.text))) (by simp [plainEntries])) []
    (Value.list? Value.text?)
  have hperiod := Entries.withDefault?_fields hkeys (mem_entries_of_plainEntries
    (e := numberEntry "period_ms" c.periodMs) (by simp [plainEntries])) defaultPeriodMs Value.number?
  have hdamping := Entries.withDefault?_fields hkeys (mem_entries_of_firstEntries
    (e := ("solver", .table .header c.solverEntries)) (by simp [firstEntries]))
    Solver.defaultDamping readDamping?
  have hgains := Entries.withDefault?_fields hkeys (mem_entries_of_firstEntries
    (e := ("gains", axesValue c.gains)) (by simp)) (.uniform .zero) readSpatialGains?
  unfold read?
  rw [hfields]
  simp only [Option.bind_eq_bind, Option.bind_some, readRootFrame, hbase, htip, hjoints,
    hlist, readCommandKind, hperiod, hdamping, readDamping?_entries, hgains, readSpatialGains?_value,
    readSegments, Value.text?, Value.number?]

/-- **Configurations read back.** -/
theorem reads_back (c : Config Float) (h : ∀ x ∈ c.numbers, x.isNaN = false) :
    ofText? c.text = .ok c := by
  have hread : Entries.ofText? c.text = some c.entries := by
    unfold Entries.ofText? text
    rw [Toml.statements?_writeStatements (isReadable_statements h)]
    exact ofStatements?_statements c
  unfold ofText?
  rw [hread, Option.bind_some, read?_entries]
  rfl

/-- Names that need every way of quoting, and numbers at the ends of their range. -/
def strange : Config Float where
  rootFrame := some ""
  baseFrame := "it's a \"base\""
  tipFrame := "C:\\tip"
  joints := ["two\nlines", "'''\"\"\"", "nul\x00 and bell\x07"]
  commandKind := some .velocity
  periodMs := Float.ofBits 0x7FF0000000000000
  damping := -0.0
  gains := .uniform ⟨0.1, -1e300, Float.ofBits 1, Float.ofBits 0xFFF0000000000000⟩
  segments := [
    ⟨"two\nlines", "\x7f", .prismatic, .unitZ, .zero, ⟨-0.0, 1e-7, 1e21⟩, .free⟩,
    ⟨"'''\"\"\"", "", .fixed, .zero, .zero, .zero, .range (-0.0) (Float.ofBits 0x7FF0000000000000)⟩]

theorem strange_reads_back :
    (∀ x ∈ strange.numbers, x.isNaN = false) ∧ ofText? strange.text = .ok strange := by
  have hnumbers : ∀ x ∈ strange.numbers, x.isNaN = false := by decide +kernel
  exact ⟨hnumbers, reads_back strange hnumbers⟩

end ArmServo.Config
