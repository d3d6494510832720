import ArmServo.Toml.Field

/-!
# Tables that are written out

Statements that open every table once and assign every key once build the table one expects: the lines
of a table in their order (`assignAll_lines`), a table under a header of its own (`openTable_new`), the
tables inside another one (`openTable_inside`), the elements of an array of tables (`openElement_next`)
and the tables inside the last of these (`openTable_last`).
-/

namespace ArmServo.Toml

/-! ## statements in blocks -/

/-- The assignments that make up a table of plain keys. -/
def lines (entries : Entries) : List (Key × Value) := entries.map fun e => (⟨[], e.1⟩, e.2)

def assignmentStatements (as : List (Key × Value)) : List (Statement Value) :=
  as.map fun a => .assign a.1 a.2

def Block.statements (b : Block) : List (Statement Value) :=
  (if b.isElement then .element b.key else .table b.key) :: assignmentStatements b.assignments

theorem blocks_assignments (as : List (Key × Value)) (ss : List (Statement Value)) :
    blocks (assignmentStatements as ++ ss) = (as ++ (blocks ss).1, (blocks ss).2) := by
  induction as with
  | nil => rfl
  | cons a as ih =>
    rw [assignmentStatements, List.map_cons, List.cons_append, blocks, ← assignmentStatements, ih]
    rfl

theorem blocks_statements (bs : List Block) : blocks (bs.flatMap Block.statements) = ([], bs) := by
  induction bs with
  | nil => rfl
  | cons b bs ih =>
    obtain ⟨isElement, key, as⟩ := b
    cases isElement with
    | false =>
      show blocks (.table key :: (assignmentStatements as ++ bs.flatMap Block.statements)) = _
      rw [blocks, blocks_assignments, ih, List.append_nil]
    | true =>
      show blocks (.element key :: (assignmentStatements as ++ bs.flatMap Block.statements)) = _
      rw [blocks, blocks_assignments, ih, List.append_nil]

namespace Entries

def keys (es : Entries) : List String := es.map Prod.fst

theorem ofStatements?_blocks (as : List (Key × Value)) (bs : List Block) :
    ofStatements? (assignmentStatements as ++ bs.flatMap Block.statements) =
      (assignAll [] as).bind fun root => bs.foldlM add root := by
  unfold ofStatements?
  rw [blocks_assignments, blocks_statements, List.append_nil]
  rfl

/-! ## looking up and replacing -/

theorem keys_append (es es' : Entries) : keys (es ++ es') = keys es ++ keys es' := List.map_append

theorem find?_eq_none {es : Entries} {name : String} (h : name ∉ es.keys) : find? name es = none := by
  unfold find?
  rw [List.lookup_eq_none_iff]
  intro e he
  rw [bne_iff_ne]
  rintro rfl
  exact h (List.mem_map_of_mem he)

theorem find?_of_mem {es : Entries} (hes : es.keys.Nodup) {name : String} {v : Value}
    (h : (name, v) ∈ es) : find? name es = some v := by
  induction es with
  | nil => cases h
  | cons e es ih =>
    obtain ⟨hnew, hes⟩ := List.nodup_cons.mp hes
    unfold find? at ih ⊢
    rcases List.mem_cons.mp h with rfl | h
    · exact List.lookup_cons_self
    · have hmem : name ∈ keys es := List.mem_map_of_mem h
      have hne : name ≠ e.1 := by
        rintro rfl
        exact hnew hmem
      rw [List.lookup_cons, beq_false_of_ne hne]
      exact ih hes h

theorem find?_last {es : Entries} {name : String} (h : name ∉ es.keys) (v : Value) :
    find? name (es ++ [(name, v)]) = some v := by
  have hnone := find?_eq_none h
  unfold find? at hnone ⊢
  rw [List.lookup_append, hnone, List.lookup_cons_self]
  rfl

theorem replace_last {es : Entries} {name : String} (h : name ∉ es.keys) (v w : Value) :
    replace name w (es ++ [(name, v)]) = es ++ [(name, w)] := by
  have hsame : es.map (fun e => if e.1 == name then (name, w) else e) = es.map id := by
    apply List.map_congr_left
    intro e he
    have hne : e.1 ≠ name := by
      rintro rfl
      exact h (List.mem_map_of_mem he)
    exact if_neg (by rwa [beq_iff_eq])
  unfold replace
  rw [List.map_append, hsame, List.map_id]
  simp

/-! ## assigning -/

theorem assign_plain {es : Entries} {name : String} (h : name ∉ es.keys) (v : Value) :
    assign es ⟨[], name⟩ v = some (es ++ [(name, v)]) := by
  unfold assign
  simp only [extend, find?_eq_none h]
  rfl

theorem assignAll_lines {es new : Entries} (h : (es ++ new).keys.Nodup) :
    assignAll es (lines new) = some (es ++ new) := by
  induction new generalizing es with
  | nil => rw [List.append_nil]; rfl
  | cons e new ih =>
    obtain ⟨name, v⟩ := e
    have hname : name ∉ es.keys := by
      intro hmem
      rw [keys_append, List.nodup_append] at h
      exact h.2.2 name hmem name List.mem_cons_self rfl
    have hstep : assignAll es (lines ((name, v) :: new)) =
        (assign es ⟨[], name⟩ v).bind fun es => assignAll es (lines new) := rfl
    rw [List.append_cons] at h ⊢
    rw [hstep, assign_plain hname, Option.bind_some, ih h]

theorem assignAll_nil_lines {t : Entries} (h : t.keys.Nodup) : assignAll [] (lines t) = some t :=
  assignAll_lines h

/-! ## opening tables -/

/-- The entries with one more at their end, unless it is an empty table or array. -/
def withValue (es : Entries) (name : String) (v : Value) : Entries :=
  if v.isEmpty then es else es ++ [(name, v)]

theorem openTable_new {es t : Entries} {name : String} (h : name ∉ es.keys) (ht : t.keys.Nodup) :
    openTable es ⟨[], name⟩ (lines t) = some (es ++ [(name, .table .header t)]) := by
  unfold openTable
  simp only [extend, find?_eq_none h, assignAll_nil_lines ht]
  rfl

theorem openTable_inside {es inner t : Entries} {outer name : String} (houter : outer ∉ es.keys)
    (hname : name ∉ inner.keys) (ht : t.keys.Nodup) :
    openTable (es.withValue outer (.table .implied inner)) ⟨[outer], name⟩ (lines t) =
      some (es.withValue outer (.table .implied (inner ++ [(name, .table .header t)]))) := by
  have hnonempty : (Value.table .implied (inner ++ [(name, .table .header t)])).isEmpty = false := by
    cases inner <;> rfl
  have hnone := find?_eq_none hname
  unfold openTable
  rw [withValue, withValue, hnonempty, if_neg Bool.false_ne_true]
  cases inner with
  | nil =>
    simp only [Value.isEmpty, if_true, extend, find?_eq_none houter, hnone,
      assignAll_nil_lines ht]
    rfl
  | cons e inner =>
    rw [if_neg (by simp [Value.isEmpty])]
    simp only [extend, find?_last houter, hnone, assignAll_nil_lines ht,
      replace_last houter]
    rfl

theorem openElement_next {es t : Entries} {name : String} {items : List Value}
    (h : name ∉ es.keys) (ht : t.keys.Nodup) :
    openElement (es.withValue name (.array true items)) ⟨[], name⟩ (lines t) =
      some (es ++ [(name, .array true (items ++ [.table .header t]))]) := by
  unfold openElement
  rw [withValue, assignAll_nil_lines ht]
  cases items with
  | nil =>
    simp only [Value.isEmpty, if_true, extend, find?_eq_none h]
    rfl
  | cons v items =>
    rw [if_neg (by simp [Value.isEmpty])]
    simp only [extend, find?_last h, replace_last h]
    rfl

theorem openTable_last {es inner t : Entries} {outer name : String} {items : List Value}
    (houter : outer ∉ es.keys) (hname : name ∉ inner.keys) (ht : t.keys.Nodup) :
    openTable (es ++ [(outer, .array true (items ++ [.table .header inner]))]) ⟨[outer], name⟩
        (lines t) =
      some (es ++ [(outer,
        .array true (items ++ [.table .header (inner ++ [(name, .table .header t)])]))]) := by
  unfold openTable
  simp only [extend, find?_last houter, List.getLast?_concat, List.dropLast_concat,
    find?_eq_none hname, assignAll_nil_lines ht, replace_last houter]
  rfl

/-! ## many tables -/

/-- The block of a table of plain keys. -/
def tableBlock (key : Key) (t : Entries) : Block := ⟨false, key, lines t⟩

def elementBlock (key : Key) (t : Entries) : Block := ⟨true, key, lines t⟩

theorem add_tableBlock (es : Entries) (key : Key) (t : Entries) :
    es.add (tableBlock key t) = es.openTable key (lines t) := rfl

theorem add_elementBlock (es : Entries) (key : Key) (t : Entries) :
    es.add (elementBlock key t) = es.openElement key (lines t) := rfl

/-- **Tables inside a table** stand in it in the order of their headers. -/
theorem foldlM_add_inside {es : Entries} {outer : String} (houter : outer ∉ es.keys)
    {tables : List (String × Entries)} (inner : Entries)
    (hnames : (inner.keys ++ tables.map Prod.fst).Nodup) (htables : ∀ t ∈ tables, t.2.keys.Nodup) :
    (tables.map fun t => tableBlock ⟨[outer], t.1⟩ t.2).foldlM add
        (es.withValue outer (.table .implied inner)) =
      some (es.withValue outer (.table .implied
        (inner ++ tables.map fun t => (t.1, .table .header t.2)))) := by
  induction tables generalizing inner with
  | nil => simp only [List.map_nil, List.append_nil, List.foldlM_nil]; rfl
  | cons t tables ih =>
    rw [List.forall_mem_cons] at htables
    have hname : t.1 ∉ inner.keys := by
      intro hmem
      rw [List.nodup_append] at hnames
      exact hnames.2.2 t.1 hmem t.1 List.mem_cons_self rfl
    have hrest : ((inner ++ [(t.1, Value.table .header t.2)]).keys ++ tables.map Prod.fst).Nodup := by
      rw [keys_append]
      simpa [keys] using hnames
    rw [List.map_cons, List.foldlM_cons, add_tableBlock, openTable_inside houter hname htables.1,
      Option.bind_eq_bind, Option.bind_some, ih _ hrest htables.2, List.append_assoc]
    rfl

/-! ## tables as records -/

/-- The fields of a record that a table holds. -/
def fields (es : Entries) : Fields := fun name => es.find? name

theorem fields?_table {names : List String} {es : Entries} (h : ∀ name ∈ es.keys, name ∈ names)
    (origin : Origin) : (Value.table origin es).fields? names = some es.fields := by
  have hall : es.all (fun e => names.contains e.1 || e.2.isReadable) = true := by
    rw [List.all_eq_true]
    intro e he
    rw [List.contains_iff_mem.mpr (h e.1 (List.mem_map_of_mem he)), Bool.true_or]
  unfold Value.fields?
  exact if_pos hall

section Fields

variable {β : Type} {es : Entries} {name : String} {v : Value}

theorem required?_fields (hes : es.keys.Nodup) (h : (name, v) ∈ es) (read : Value → Option β) :
    es.fields.required? name read = read v := by
  unfold Fields.required? fields
  rw [find?_of_mem hes h]

theorem withDefault?_fields (hes : es.keys.Nodup) (h : (name, v) ∈ es) (default : β)
    (read : Value → Option β) : es.fields.withDefault? name default read = read v := by
  unfold Fields.withDefault? fields
  rw [find?_of_mem hes h]

theorem withDefault?_missing (h : name ∉ es.keys) (default : β) (read : Value → Option β) :
    es.fields.withDefault? name default read = some default := by
  unfold Fields.withDefault? fields
  rw [find?_eq_none h]

theorem optional?_fields (hes : es.keys.Nodup) (h : (name, v) ∈ es) (read : Value → Option β) :
    es.fields.optional? name read = (read v).map some := by
  unfold Fields.optional? fields
  rw [find?_of_mem hes h]

theorem optional?_missing (h : name ∉ es.keys) (read : Value → Option β) :
    es.fields.optional? name read = some none := by
  unfold Fields.optional? fields
  rw [find?_eq_none h]

end Fields

end Entries

end ArmServo.Toml
