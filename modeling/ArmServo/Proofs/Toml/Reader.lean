import ArmServo.Proofs.Toml.Numeral
import ArmServo.Proofs.Toml.Quote
import ArmServo.Toml.Reader

/-!
# Statements read back

Every list of statements that can be written is read back from the text that is written, statement by
statement: keys of bare names, and texts, numbers and arrays of these as values. What can not be read
back is a number that is none.

Main statement: `statements?_writeStatements`.
-/

namespace ArmServo.Toml

/-! ## what can be written -/

/-- The value is not an undefined number. -/
def Atom.IsReadable : Atom → Prop
  | .text _ => True
  | .number x => x.isNaN = false

def Content.IsReadable : Content → Prop
  | .atom a => a.IsReadable
  | .array items => ∀ a ∈ items, a.IsReadable

/-- A name that stands without quotes. -/
def IsBareName (name : String) : Prop := name.toList ≠ [] ∧ ∀ c ∈ name.toList, isBareChar c = true

structure Key.IsBare (k : Key) : Prop where
  names : ∀ name ∈ k.name :: k.path, IsBareName name
  depth : k.path.length < maximalDepth

def Statement.IsReadable : Statement Content → Prop
  | .assign key v => key.IsBare ∧ v.IsReadable
  | .table key => key.IsBare
  | .element key => key.IsBare

/-! ## gaps -/

/-- The character is no gap and begins none. -/
def isSolid (c : Char) : Bool := !isBlank c && c != '\n' && c != '\r' && c != '#'

/-- The text begins with a character that is not skipped. -/
def BeginsSolid (cs : List Char) : Prop := ∃ c r, cs = c :: r ∧ isSolid c = true

theorem BeginsSolid.append {cs : List Char} (h : BeginsSolid cs) (r : List Char) :
    BeginsSolid (cs ++ r) := by
  obtain ⟨c, t, rfl, hc⟩ := h
  exact ⟨c, t ++ r, rfl, hc⟩

theorem BeginsSolid.skip? {cs : List Char} (h : BeginsSolid cs) : skip? false cs = some cs := by
  obtain ⟨c, r, rfl, hc⟩ := h
  simp only [isSolid, Bool.and_eq_true, Bool.not_eq_true', bne_iff_ne] at hc
  obtain ⟨⟨⟨hblank, hline⟩, hreturn⟩, hhash⟩ := hc
  rw [Toml.skip?.eq_def]
  split <;> simp_all

theorem BeginsSolid.dropBlanks {cs : List Char} (h : BeginsSolid cs) : dropBlanks cs = cs := by
  obtain ⟨c, r, rfl, hc⟩ := h
  simp only [isSolid, Bool.and_eq_true, Bool.not_eq_true'] at hc
  unfold Toml.dropBlanks
  rw [List.dropWhile_cons_of_neg (by simp [hc])]

theorem skip?_line (cs : List Char) : skip? false ('\n' :: cs) = skip? false cs := by
  rw [skip?]

theorem skip?_space (cs : List Char) : skip? false (' ' :: cs) = skip? false cs := by
  rw [skip?.eq_def]
  rfl

/-! ## keys -/

theorem ne_of_isBareChar {c d : Char} (h : isBareChar c = true) (hd : isBareChar d = false) : c ≠ d := by
  rintro rfl
  rw [h] at hd
  cases hd

theorem isSolid_of_isBareChar {c : Char} (h : isBareChar c = true) : isSolid c = true := by
  have hspace := ne_of_isBareChar h (d := ' ') rfl
  have htab := ne_of_isBareChar h (d := '\t') rfl
  have hline := ne_of_isBareChar h (d := '\n') rfl
  have hreturn := ne_of_isBareChar h (d := '\r') rfl
  have hhash := ne_of_isBareChar h (d := '#') rfl
  simp [isSolid, isBlank, hspace, htab, hline, hreturn, hhash]

theorem IsBareName.beginsSolid {name : String} (h : IsBareName name) : BeginsSolid name.toList := by
  obtain ⟨c, r, hname⟩ := List.exists_cons_of_ne_nil h.1
  refine ⟨c, r, hname, isSolid_of_isBareChar (h.2 c ?_)⟩
  rw [hname]
  exact List.mem_cons_self

theorem readName?_bare {name : String} (h : IsBareName name) {c : Char} (hc : isBareChar c = false)
    (r : List Char) : readName? (name.toList ++ c :: r) = some (name, c :: r) := by
  have htake : (name.toList ++ c :: r).takeWhile isBareChar = name.toList := by
    rw [List.takeWhile_append_of_pos h.2]
    simp [hc]
  have hdrop : (name.toList ++ c :: r).dropWhile isBareChar = c :: r := by
    rw [List.dropWhile_append_of_pos h.2]
    simp [hc]
  have hhead : ∀ q t, isBareChar q = false → name.toList ++ c :: r ≠ q :: t := by
    intro q t hq heq
    obtain ⟨d, l, hname⟩ := List.exists_cons_of_ne_nil h.1
    rw [hname, List.cons_append, List.cons.injEq] at heq
    refine ne_of_isBareChar (h.2 d ?_) hq heq.1
    rw [hname]
    exact List.mem_cons_self
  unfold readName?
  split
  · next heq => exact absurd heq (hhead _ _ rfl)
  · next heq => exact absurd heq (hhead _ _ rfl)
  · simp only [htake, hdrop]
    rw [if_neg (by simpa using h.1), String.ofList_toList]

theorem beginsSolid_write_key {path : List String} {name : String}
    (h : ∀ n ∈ name :: path, IsBareName n) : BeginsSolid (Key.write ⟨path, name⟩) := by
  cases path with
  | nil => exact (h name List.mem_cons_self).beginsSolid
  | cons p path =>
    unfold Key.write
    rw [List.flatMap_cons, List.append_assoc, List.append_assoc]
    exact (h p (by simp)).beginsSolid.append _

/-- What follows a key begins with nothing that could belong to it. -/
def EndsKey (r : List Char) : Prop :=
  (∃ c t, r = c :: t ∧ isBareChar c = false) ∧ ∀ t, dropBlanks r ≠ '.' :: t

theorem readKey?_write {path : List String} {name : String}
    (h : ∀ n ∈ name :: path, IsBareName n) {n : Nat} (hn : path.length < n) {r : List Char}
    (hr : EndsKey r) :
    readKey? n (Key.write ⟨path, name⟩ ++ r) = some (⟨path, name⟩, dropBlanks r) := by
  obtain ⟨⟨c, t, rfl, hc⟩, hdot⟩ := id hr
  induction path generalizing n with
  | nil =>
    cases n with
    | zero => exact absurd hn (Nat.not_lt_zero _)
    | succ n =>
      show readKey? (n + 1) (name.toList ++ c :: t) = _
      unfold readKey?
      rw [readName?_bare (h name List.mem_cons_self) hc]
      simp only [Option.bind_eq_bind, Option.bind_some]
  | cons p path ih =>
    cases n with
    | zero => exact absurd hn (Nat.not_lt_zero _)
    | succ n =>
      have hrest : ∀ m ∈ name :: path, IsBareName m := fun m hm => h m (by
        rcases List.mem_cons.mp hm with rfl | hm
        · exact List.mem_cons_self
        · exact List.mem_cons_of_mem _ (List.mem_cons_of_mem _ hm))
      have hwrite : Key.write ⟨p :: path, name⟩ ++ c :: t =
          p.toList ++ '.' :: (Key.write ⟨path, name⟩ ++ c :: t) := by
        simp [Key.write]
      have hdrop := ((beginsSolid_write_key hrest).append (c :: t)).dropBlanks
      have hdotted : dropBlanks ('.' :: (Key.write ⟨path, name⟩ ++ c :: t)) =
          '.' :: (Key.write ⟨path, name⟩ ++ c :: t) :=
        BeginsSolid.dropBlanks ⟨'.', _, rfl, rfl⟩
      rw [hwrite]
      unfold readKey?
      rw [readName?_bare (h p (by simp)) rfl]
      simp only [Option.bind_eq_bind, Option.bind_some, hdotted, hdrop,
        ih hrest (Nat.lt_of_succ_lt_succ hn)]
      rfl

theorem key?_write {k : Key} (hk : k.IsBare) {r : List Char} (hr : EndsKey r) :
    key? (k.write ++ r) = some (k, dropBlanks r) := readKey?_write hk.names hk.depth hr

/-! ## values -/

/-- The character ends a value that is written. -/
def isCloser (c : Char) : Bool := c == ',' || c == '\n' || c == ']'

theorem write_text_cons (s : List Char) :
    ∃ r, Quote.write s = '"' :: r ∨ Quote.write s = '\'' :: r := by
  unfold Quote.write
  cases Quote.Form.of s with
  | basic => exact ⟨_, .inl rfl⟩
  | literal => exact ⟨_, .inr rfl⟩
  | lines => exact ⟨_, .inl rfl⟩
  | literalLines => exact ⟨_, .inr rfl⟩

theorem writeNumber_cons {x : Float} (hx : x.isNaN = false) :
    ∃ c r, (writeNumber x).toList = c :: r ∧ (c = '-' ∨ c = 'i' ∨ c.isDigit = true) := by
  rcases writeNumber_cases hx with ⟨negative, htext, -⟩ | ⟨negative, front, back, h, htext, -⟩
  · cases negative with
    | true => exact ⟨'-', _, htext, .inl rfl⟩
    | false => exact ⟨'i', _, htext, .inr (.inl rfl)⟩
  · cases negative with
    | true => exact ⟨'-', _, htext, .inl rfl⟩
    | false =>
      obtain ⟨d, t, hfront⟩ := List.exists_cons_of_ne_nil h.front_ne_nil
      refine ⟨d, t ++ '.' :: back, ?_, .inr (.inr (h.front_digits d ?_))⟩
      · rw [htext, hfront]
        rfl
      · rw [hfront]
        exact List.mem_cons_self

theorem ne_of_writeNumber {c d : Char} (h : c = '-' ∨ c = 'i' ∨ c.isDigit = true)
    (hd : d ≠ '-' ∧ d ≠ 'i' ∧ d.isDigit = false) : c ≠ d := by
  rintro rfl
  obtain ⟨hminus, hi, hdigit⟩ := hd
  simp_all

/-- An item begins with a character that is no gap and opens or closes no array and no table. -/
theorem beginning_of_atom {a : Atom} (h : a.IsReadable) : ∃ c r, a.write = c :: r ∧
    isSolid c = true ∧ c ≠ '[' ∧ c ≠ ']' ∧ c ≠ '{' := by
  cases a with
  | text s =>
    obtain ⟨r, hr | hr⟩ := write_text_cons s.toList
    · exact ⟨_, r, hr, rfl, by decide, by decide, by decide⟩
    · exact ⟨_, r, hr, rfl, by decide, by decide, by decide⟩
  | number x =>
    obtain ⟨c, r, hr, hc⟩ := writeNumber_cons h
    refine ⟨c, r, hr, ?_, ne_of_writeNumber hc (by decide), ne_of_writeNumber hc (by decide),
      ne_of_writeNumber hc (by decide)⟩
    have hspace := ne_of_writeNumber hc (d := ' ') (by decide)
    have htab := ne_of_writeNumber hc (d := '\t') (by decide)
    have hline := ne_of_writeNumber hc (d := '\n') (by decide)
    have hreturn := ne_of_writeNumber hc (d := '\r') (by decide)
    have hhash := ne_of_writeNumber hc (d := '#') (by decide)
    simp [isSolid, isBlank, hspace, htab, hline, hreturn, hhash]

theorem beginsSolid_write {a : Atom} (h : a.IsReadable) : BeginsSolid a.write := by
  obtain ⟨c, r, hr, hc, -⟩ := beginning_of_atom h
  exact ⟨c, r, hr, hc⟩

theorem readPlain?_write {a : Atom} (h : a.IsReadable) {c : Char} (hc : isCloser c = true)
    (r : List Char) : readPlain? (a.write ++ c :: r) = some (a.value, c :: r) := by
  have hcases : c = ',' ∨ c = '\n' ∨ c = ']' := by
    simpa [isCloser, or_assoc] using hc
  cases a with
  | text s =>
    have hread : Quote.read? (Quote.write s.toList ++ c :: r) = some (s.toList, c :: r) := by
      apply Quote.read?_write
      · rcases hcases with rfl | rfl | rfl <;> simp [Quote.Avoids]
      · rcases hcases with rfl | rfl | rfl <;> simp [Quote.Avoids]
    show readPlain? (Quote.write s.toList ++ c :: r) = some (.text s, c :: r)
    obtain ⟨t, ht | ht⟩ := write_text_cons s.toList
    · rw [ht] at hread ⊢
      show (Quote.read? ('"' :: t ++ c :: r)).map _ = _
      rw [hread]
      simp
    · rw [ht] at hread ⊢
      show (Quote.read? ('\'' :: t ++ c :: r)).map _ = _
      rw [hread]
      simp
  | number x =>
    have hread : Numeral.read? ((writeNumber x).toList ++ c :: r) = some (.number x, c :: r) := by
      apply read?_writeNumber h
      · rcases hcases with rfl | rfl | rfl <;> rfl
      · rcases hcases with rfl | rfl | rfl <;> decide
    obtain ⟨d, t, ht, hd⟩ := writeNumber_cons h
    have hdouble := ne_of_writeNumber hd (d := '"') (by decide)
    have hsingle := ne_of_writeNumber hd (d := '\'') (by decide)
    show readPlain? ((writeNumber x).toList ++ c :: r) = some (.number x, c :: r)
    rw [← hread, ht, List.cons_append]
    unfold readPlain?
    split <;> simp_all

theorem readValue?_atom {a : Atom} (h : a.IsReadable) (depth : Nat) {c : Char}
    (hc : isCloser c = true) (r : List Char) :
    readValue? depth (a.write ++ c :: r) = some (a.value, c :: r) := by
  rw [← readPlain?_write h hc r]
  obtain ⟨d, t, ht, -, hopen, -, hbrace⟩ := beginning_of_atom h
  rw [ht, List.cons_append]
  unfold readValue?
  split <;> simp_all

/-! ## arrays -/

theorem skip?_indent (cs : List Char) :
    skip? false (' ' :: ' ' :: ' ' :: ' ' :: cs) = skip? false cs := by
  rw [skip?_space, skip?_space, skip?_space, skip?_space]

/-- Items of which each takes a line. -/
def writeLines (items : List Atom) : List Char :=
  items.flatMap fun a => [' ', ' ', ' ', ' '] ++ a.write ++ [',', '\n']

theorem readItems?_closed {value? : Reader Value} {rounds : Nat} {cs r : List Char}
    (h : skip? false cs = some (']' :: r)) : readItems? value? (rounds + 1) cs = some ([], r) := by
  unfold readItems?
  rw [h]
  rfl

/-- An item is not taken for the closing bracket. -/
theorem readItems?_item {a : Atom} (ha : a.IsReadable) {depth rounds : Nat} {cs r : List Char}
    {c : Char} (hc : isCloser c = true) (hcs : skip? false cs = some (a.write ++ c :: r)) :
    readItems? (readValue? depth) (rounds + 1) cs = (do
      match ← skip? false (c :: r) with
      | ',' :: r => do
        let (vs, r) ← readItems? (readValue? depth) rounds r
        some (a.value :: vs, r)
      | ']' :: r => some ([a.value], r)
      | _ => none) := by
  obtain ⟨d, t, ht, -, -, hclose, -⟩ := beginning_of_atom ha
  have hread := readValue?_atom ha depth hc r
  rw [readItems?, hcs]
  simp only [Option.bind_eq_bind, Option.bind_some]
  split
  · next heq =>
    rw [ht, List.cons_append, List.cons.injEq] at heq
    exact absurd heq.1 hclose
  · rw [hread]
    rfl

theorem readItems?_more {a : Atom} (ha : a.IsReadable) {depth rounds : Nat} {cs r r' : List Char}
    {vs : List Value} (hcs : skip? false cs = some (a.write ++ ',' :: r))
    (hr : readItems? (readValue? depth) rounds r = some (vs, r')) :
    readItems? (readValue? depth) (rounds + 1) cs = some (a.value :: vs, r') := by
  rw [readItems?_item ha rfl hcs, BeginsSolid.skip? ⟨',', r, rfl, rfl⟩]
  simp only [Option.bind_eq_bind, Option.bind_some, hr]

theorem readItems?_last {a : Atom} (ha : a.IsReadable) {depth rounds : Nat} {cs r : List Char}
    (hcs : skip? false cs = some (a.write ++ ']' :: r)) :
    readItems? (readValue? depth) (rounds + 1) cs = some ([a.value], r) := by
  rw [readItems?_item ha rfl hcs, BeginsSolid.skip? ⟨']', r, rfl, rfl⟩]
  rfl

theorem readItems?_lines {items : List Atom} (h : ∀ a ∈ items, a.IsReadable) {depth rounds : Nat}
    (hrounds : items.length < rounds) (r : List Char) :
    readItems? (readValue? depth) rounds ('\n' :: (writeLines items ++ ']' :: r)) =
        some (items.map Atom.value, r) := by
  induction items generalizing rounds with
  | nil =>
    cases rounds with
    | zero => exact absurd hrounds (Nat.not_lt_zero _)
    | succ rounds =>
      apply readItems?_closed
      rw [skip?_line]
      exact BeginsSolid.skip? ⟨_, _, rfl, rfl⟩
  | cons a items ih =>
    rw [List.forall_mem_cons] at h
    cases rounds with
    | zero => exact absurd hrounds (Nat.not_lt_zero _)
    | succ rounds =>
      have hlines : writeLines (a :: items) ++ ']' :: r = ' ' :: ' ' :: ' ' :: ' ' ::
          (a.write ++ ',' :: '\n' :: (writeLines items ++ ']' :: r)) := by
        simp [writeLines]
      have hskip : skip? false ('\n' :: (writeLines (a :: items) ++ ']' :: r)) =
          some (a.write ++ ',' :: '\n' :: (writeLines items ++ ']' :: r)) := by
        rw [hlines, skip?_line, skip?_indent]
        exact ((beginsSolid_write h.1).append _).skip?
      exact readItems?_more h.1 hskip (ih h.2 (Nat.lt_of_succ_lt_succ hrounds))

theorem length_writeLines (items : List Atom) : items.length ≤ (writeLines items).length := by
  induction items with
  | nil => exact Nat.zero_le _
  | cons a items ih =>
    unfold writeLines at ih ⊢
    rw [List.flatMap_cons, List.length_append, List.length_cons]
    simp only [List.length_append, List.length_cons]
    omega

theorem readArray?_write {items : List Atom} (h : ∀ a ∈ items, a.IsReadable) (depth : Nat)
    (r : List Char) : ∃ body, (Content.array items).write = '[' :: body ∧
      readArray? (readValue? depth) (body ++ r) = some (.array false (items.map Atom.value), r) := by
  unfold readArray?
  match items with
  | [] =>
    refine ⟨[']'], rfl, ?_⟩
    rw [show [']'] ++ r = ']' :: r from rfl, List.length_cons,
      readItems?_closed (BeginsSolid.skip? ⟨_, _, rfl, rfl⟩)]
    rfl
  | [a] =>
    rw [List.forall_mem_singleton] at h
    refine ⟨a.write ++ [']'], rfl, ?_⟩
    have hskip := ((beginsSolid_write h).append (']' :: r)).skip?
    rw [List.append_assoc]
    show (readItems? _ (a.write ++ ']' :: r).length (a.write ++ ']' :: r)).map _ = _
    rw [List.length_append, List.length_cons, ← Nat.add_assoc, readItems?_last h hskip]
    rfl
  | a :: b :: items =>
    refine ⟨'\n' :: (writeLines (a :: b :: items) ++ [']']), rfl, ?_⟩
    rw [List.cons_append, List.append_assoc]
    show (readItems? _ _ ('\n' :: (writeLines (a :: b :: items) ++ ']' :: r))).map _ = _
    rw [readItems?_lines h]
    · rfl
    · have := length_writeLines (a :: b :: items)
      simp only [List.length_cons, List.length_append] at this ⊢
      omega

theorem readValue?_write {v : Content} (h : v.IsReadable) {depth : Nat} (hdepth : depth ≠ 0)
    (r : List Char) :
    readValue? depth (v.write ++ '\n' :: r) = some (v.value, '\n' :: r) := by
  cases v with
  | atom a => exact readValue?_atom h depth rfl r
  | array items =>
    cases depth with
    | zero => exact absurd rfl hdepth
    | succ depth =>
      obtain ⟨body, hbody, hread⟩ := readArray?_write h depth ('\n' :: r)
      rw [hbody]
      exact hread

theorem beginsSolid_write_content {v : Content} (h : v.IsReadable) : BeginsSolid v.write := by
  cases v with
  | atom a => exact beginsSolid_write h
  | array items =>
    obtain ⟨body, hbody, -⟩ := readArray?_write h 0 []
    exact ⟨_, _, hbody, rfl⟩

/-! ## statements -/

/-- A statement without the empty line before it and the end of its line. -/
def Statement.body : Statement Content → List Char
  | .assign key v => key.write ++ ' ' :: '=' :: ' ' :: v.write
  | .table key => '[' :: (key.write ++ [']'])
  | .element key => '[' :: '[' :: (key.write ++ [']', ']'])

theorem Key.IsBare.beginsSolid {k : Key} (hk : k.IsBare) (r : List Char) :
    BeginsSolid (k.write ++ r) := (beginsSolid_write_key hk.names).append r

/-- A key begins with a character of names. -/
theorem Key.IsBare.write_cons {k : Key} (hk : k.IsBare) :
    ∃ c r, k.write = c :: r ∧ isBareChar c = true := by
  obtain ⟨path, name⟩ := k
  have hbare : ∀ n r, IsBareName n → ∃ c t, n.toList ++ r = c :: t ∧ isBareChar c = true := by
    intro n r hn
    obtain ⟨c, t, hct⟩ := List.exists_cons_of_ne_nil hn.1
    refine ⟨c, t ++ r, by rw [hct]; rfl, hn.2 c ?_⟩
    rw [hct]
    exact List.mem_cons_self
  cases path with
  | nil =>
    have h := hbare name [] (hk.names name List.mem_cons_self)
    rwa [List.append_nil] at h
  | cons p path =>
    unfold Key.write
    rw [List.flatMap_cons, List.append_assoc, List.append_assoc]
    exact hbare p _ (hk.names p (by simp))

theorem endsKey_bracket (r : List Char) : EndsKey (']' :: r) := by
  refine ⟨⟨_, _, rfl, rfl⟩, fun t => ?_⟩
  rw [BeginsSolid.dropBlanks ⟨_, _, rfl, rfl⟩]
  simp

theorem dropBlanks_space {cs : List Char} (h : BeginsSolid cs) : dropBlanks (' ' :: cs) = cs := by
  have hspace : dropBlanks (' ' :: cs) = dropBlanks cs := rfl
  rw [hspace, h.dropBlanks]

theorem endsKey_equals (r : List Char) : EndsKey (' ' :: '=' :: r) := by
  refine ⟨⟨_, _, rfl, rfl⟩, fun t => ?_⟩
  rw [dropBlanks_space ⟨_, _, rfl, rfl⟩]
  simp

theorem readAssignment?_write {k : Key} (hk : k.IsBare) {v : Content} (hv : v.IsReadable)
    (r : List Char) :
    readAssignment? (some ∘ dropBlanks) (readValue? maximalDepth)
        (k.write ++ ' ' :: '=' :: ' ' :: (v.write ++ '\n' :: r)) =
      some ((k, v.value), '\n' :: r) := by
  have hvalue := (beginsSolid_write_content hv).append ('\n' :: r)
  unfold readAssignment?
  rw [key?_write hk (endsKey_equals _), dropBlanks_space ⟨_, _, rfl, rfl⟩]
  simp only [Option.bind_eq_bind, Option.bind_some, Function.comp_apply,
    BeginsSolid.dropBlanks ⟨'=', _, rfl, rfl⟩, dropBlanks_space hvalue,
    readValue?_write hv (show maximalDepth ≠ 0 by decide)]

theorem readStatement?_body {s : Statement Content} (h : s.IsReadable) (r : List Char) :
    readStatement? (s.body ++ '\n' :: r) = some (s.map Content.value, '\n' :: r) := by
  cases s with
  | assign k v =>
    obtain ⟨hk, hv⟩ := h
    have hbody : (Statement.assign k v).body ++ '\n' :: r =
        k.write ++ ' ' :: '=' :: ' ' :: (v.write ++ '\n' :: r) := by
      simp [Statement.body]
    obtain ⟨c, t, hct, hc⟩ := hk.write_cons
    have hread := readAssignment?_write hk hv r
    have hbracket : c ≠ '[' := ne_of_isBareChar hc rfl
    rw [hbody]
    rw [hct, List.cons_append] at hread ⊢
    unfold readStatement?
    split
    · next heq => exact absurd (List.cons.inj heq).1 hbracket
    · next heq => exact absurd (List.cons.inj heq).1 hbracket
    · rw [hread]
      rfl
  | table k =>
    have hbody : (Statement.table k).body ++ '\n' :: r =
        '[' :: (k.write ++ ']' :: '\n' :: r) := by
      simp [Statement.body]
    have hkey := key?_write h (endsKey_bracket ('\n' :: r))
    have hsolid : dropBlanks (']' :: '\n' :: r) = ']' :: '\n' :: r :=
      BeginsSolid.dropBlanks ⟨_, _, rfl, rfl⟩
    obtain ⟨c, t, hct, hc⟩ := h.write_cons
    have hbracket : c ≠ '[' := ne_of_isBareChar hc rfl
    rw [hbody]
    unfold readStatement?
    split
    · next heq =>
      rw [hct, List.cons.injEq, List.cons_append, List.cons.injEq] at heq
      exact absurd heq.2.1 hbracket
    · next heq =>
      cases heq
      simp only [(h.beginsSolid _).dropBlanks, hkey, Option.bind_eq_bind, Option.bind_some, hsolid]
      rfl
    · next hno => exact absurd rfl (hno _)
  | element k =>
    have hbody : (Statement.element k).body ++ '\n' :: r =
        '[' :: '[' :: (k.write ++ ']' :: ']' :: '\n' :: r) := by
      simp [Statement.body]
    have hsolid : dropBlanks (']' :: ']' :: '\n' :: r) = ']' :: ']' :: '\n' :: r :=
      BeginsSolid.dropBlanks ⟨_, _, rfl, rfl⟩
    rw [hbody]
    unfold readStatement?
    simp only [(h.beginsSolid _).dropBlanks, key?_write h (endsKey_bracket _), Option.bind_eq_bind,
      Option.bind_some, hsolid]
    rfl

theorem write_eq (s : Statement Content) (r : List Char) :
    s.write ++ r = s.body ++ '\n' :: r ∨ s.write ++ r = '\n' :: (s.body ++ '\n' :: r) := by
  cases s with
  | assign k v => exact .inl (by simp [Statement.write, Statement.body])
  | table k => exact .inr (by simp [Statement.write, Statement.body])
  | element k => exact .inr (by simp [Statement.write, Statement.body])

theorem beginsSolid_body {s : Statement Content} (h : s.IsReadable) : BeginsSolid s.body := by
  cases s with
  | assign k v => exact h.1.beginsSolid _
  | table k => exact ⟨_, _, rfl, rfl⟩
  | element k => exact ⟨_, _, rfl, rfl⟩

theorem skip?_write {s : Statement Content} (h : s.IsReadable) (r : List Char) :
    skip? false (s.write ++ r) = some (s.body ++ '\n' :: r) := by
  have hsolid := ((beginsSolid_body h).append ('\n' :: r)).skip?
  rcases write_eq s r with heq | heq
  · rw [heq, hsolid]
  · rw [heq, skip?_line, hsolid]

theorem readStatements?_write {ss : List (Statement Content)} (h : ∀ s ∈ ss, s.IsReadable)
    {rounds : Nat} (hrounds : ss.length < rounds) :
    readStatements? rounds (ss.flatMap Statement.write) =
      some (ss.map (Statement.map Content.value)) := by
  induction ss generalizing rounds with
  | nil =>
    cases rounds with
    | zero => exact absurd hrounds (Nat.not_lt_zero _)
    | succ rounds => rfl
  | cons s ss ih =>
    rw [List.forall_mem_cons] at h
    cases rounds with
    | zero => exact absurd hrounds (Nat.not_lt_zero _)
    | succ rounds =>
      have hrest := ih h.2 (Nat.lt_of_succ_lt_succ hrounds)
      obtain ⟨c, t, hct, -⟩ := beginsSolid_body h.1
      have hread := readStatement?_body h.1 (ss.flatMap Statement.write)
      have hline : endLine? false ('\n' :: ss.flatMap Statement.write) =
          some (ss.flatMap Statement.write) := by
        rw [endLine?]
      rw [List.flatMap_cons]
      unfold readStatements?
      rw [skip?_write h.1]
      rw [hct, List.cons_append] at hread ⊢
      simp only [Option.bind_eq_bind, Option.bind_some, hread, hline, hrest, List.map_cons]

theorem length_writeStatements (ss : List (Statement Content)) :
    ss.length ≤ (ss.flatMap Statement.write).length := by
  induction ss with
  | nil => exact Nat.zero_le _
  | cons s ss ih =>
    have hs : 1 ≤ s.write.length := by
      cases s <;> simp only [Statement.write, List.length_append, List.length_cons] <;> omega
    rw [List.flatMap_cons, List.length_append, List.length_cons]
    omega

theorem dropMark_write {ss : List (Statement Content)} (h : ∀ s ∈ ss, s.IsReadable) :
    dropMark (ss.flatMap Statement.write) = ss.flatMap Statement.write := by
  cases ss with
  | nil => rfl
  | cons s ss =>
    rw [List.forall_mem_cons] at h
    rw [List.flatMap_cons]
    cases s with
    | assign k v =>
      obtain ⟨c, t, hct, hc⟩ := h.1.1.write_cons
      have hmark : c ≠ '\ufeff' := ne_of_isBareChar hc rfl
      simp only [Statement.write, hct, List.cons_append]
      unfold dropMark
      split
      · next heq => exact absurd (List.cons.inj heq).1 hmark
      · rfl
    | table k => rfl
    | element k => rfl

/-- **Statements read back** from the text that is written. -/
theorem statements?_writeStatements {ss : List (Statement Content)}
    (h : ∀ s ∈ ss, s.IsReadable) :
    statements? (writeStatements ss).toList = some (ss.map (Statement.map Content.value)) := by
  unfold statements? writeStatements
  rw [String.toList_ofList, dropMark_write h]
  exact readStatements?_write h (Nat.lt_succ_of_le (length_writeStatements ss))

end ArmServo.Toml
