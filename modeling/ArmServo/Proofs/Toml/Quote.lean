import ArmServo.Toml.Quote

/-!
# Texts read back

Whatever a text consists of, the form in which it is written reads back as the text. In the forms
over several lines a quote at the end of the text stands right before the closing quotes, so that it
is the closing that gives it back; there are never more than two such quotes, and inside the text
never three in a row.

Main statement: `read?_write`.
-/

namespace ArmServo.Toml.Quote

/-! ## single characters -/

/-- The escape of a control character is the code point that it is read as. -/
theorem ofHex?_hexLetter {c : Char} (hc : isControl c = true) :
    ofHex? ['0', '0', hexLetter (c.toNat / 16), hexLetter (c.toNat % 16)] = some c := by
  have hall : ∀ n < 128, isControl (Char.ofNat n) = true →
      ofHex? ['0', '0', hexLetter (n / 16), hexLetter (n % 16)] = some (Char.ofNat n) := by
    decide
  have hlt : c.toNat < 128 := by
    simp [isControl] at hc
    omega
  have h := hall c.toNat hlt
  rw [Char.ofNat_toNat] at h
  exact h hc

theorem escape_cases (c : Char) :
    (∃ l, escape c = ['\\', l] ∧ ofLetter? l = some c ∧ isBlank l = false ∧
      l ∉ ['x', 'u', 'U', '\n', '\r']) ∨
    (isControl c = true ∧
      escape c = ['\\', 'u', '0', '0', hexLetter (c.toNat / 16), hexLetter (c.toNat % 16)]) ∨
    (isControl c = false ∧ c ≠ '\\' ∧ escape c = [c]) := by
  unfold escape
  split
  · exact .inl ⟨'\\', rfl, rfl, rfl, by decide⟩
  · exact .inl ⟨'b', rfl, rfl, rfl, by decide⟩
  · exact .inl ⟨'t', rfl, rfl, rfl, by decide⟩
  · exact .inl ⟨'f', rfl, rfl, rfl, by decide⟩
  · exact .inl ⟨'r', rfl, rfl, rfl, by decide⟩
  · next hslash _ _ _ _ =>
    cases hc : isControl c with
    | true => exact .inr (.inl ⟨rfl, if_pos rfl⟩)
    | false => exact .inr (.inr ⟨rfl, hslash, if_neg Bool.false_ne_true⟩)

/-! ## a text on one line -/

theorem readBasic_letter {l : Char} (hl : l ∉ ['x', 'u', 'U']) (r : List Char) :
    readBasic ('\\' :: l :: r) = put (ofLetter? l) (readBasic r) := by
  simp only [List.mem_cons, List.not_mem_nil, or_false, not_or] at hl
  obtain ⟨hx, hu, hU⟩ := hl
  rw [readBasic.eq_def]
  split <;> simp_all
  next hno heq => exact absurd heq.2.symm (hno _ _ heq.1.symm)

theorem readBasic_plain {c : Char} (hquote : c ≠ '"') (hslash : c ≠ '\\')
    (hc : isControl c = false) (r : List Char) :
    readBasic (c :: r) = put (some c) (readBasic r) := by
  rw [readBasic.eq_def]
  split <;> simp_all

theorem readBasic_escape {c : Char} (hquote : c ≠ '"') (r : List Char) :
    readBasic (escape c ++ r) = put (some c) (readBasic r) := by
  obtain ⟨l, hl, hletter, -, hmem⟩ | ⟨hc, hu⟩ | ⟨hc, hslash, hplain⟩ := escape_cases c
  · rw [hl, ← hletter]
    exact readBasic_letter (by simp_all) r
  · rw [hu, ← ofHex?_hexLetter hc]
    rfl
  · rw [hplain]
    exact readBasic_plain hquote hslash hc r

theorem readBasic_escapeLine (s rest : List Char) :
    readBasic (escapeLine s ++ '"' :: rest) = some (s, rest) := by
  fun_induction escapeLine s with
  | case1 => rfl
  | case2 r ih =>
    show readBasic ('\\' :: '"' :: (escapeLine r ++ '"' :: rest)) = _
    rw [readBasic_letter (by decide), ih]
    rfl
  | case3 r ih =>
    show readBasic ('\\' :: 'n' :: (escapeLine r ++ '"' :: rest)) = _
    rw [readBasic_letter (by decide), ih]
    rfl
  | case4 c r hquote hline ih =>
    rw [List.append_assoc, readBasic_escape hquote, ih]
    rfl

theorem readLiteral_append {s : List Char} (hcontrol : ∀ c ∈ s, isControl c = false)
    (hquote : '\'' ∉ s) (rest : List Char) :
    readLiteral (s ++ '\'' :: rest) = some (s, rest) := by
  induction s with
  | nil => rfl
  | cons c s ih =>
    rw [List.mem_cons, not_or] at hquote
    rw [List.forall_mem_cons] at hcontrol
    have hstep : readLiteral (c :: (s ++ '\'' :: rest)) =
        put (some c) (readLiteral (s ++ '\'' :: rest)) := by
      rw [readLiteral.eq_def]
      split <;> simp_all
    rw [List.cons_append, hstep, ih hcontrol.2 hquote.2]
    rfl

/-! ## quotes before the closing quotes -/

/-- The text does not begin with the character. -/
def Avoids (q : Char) (cs : List Char) : Prop := cs.head? ≠ some q

/-- The text begins with at most `n` quotes, and then either ends or goes on with something else. -/
def BeginsWithin (n : Nat) (q : Char) (cs : List Char) : Prop :=
  ∃ k ≤ n, cs = List.replicate k q ∨ ∃ c r, c ≠ q ∧ cs = List.replicate k q ++ c :: r

theorem BeginsWithin.of_ne {n : Nat} {q c : Char} (hc : c ≠ q) (r : List Char) :
    BeginsWithin n q (c :: r) := ⟨0, Nat.zero_le n, .inr ⟨c, r, hc, rfl⟩⟩

theorem BeginsWithin.of_avoids {n : Nat} {q : Char} {cs : List Char} (h : Avoids q cs) :
    BeginsWithin n q cs := by
  cases cs with
  | nil => exact ⟨0, Nat.zero_le n, .inl rfl⟩
  | cons c r => exact .of_ne (by simpa [Avoids] using h) r

theorem BeginsWithin.cons {n : Nat} {q : Char} {cs : List Char} (h : BeginsWithin n q cs) :
    BeginsWithin (n + 1) q (q :: cs) := by
  obtain ⟨k, hk, rfl | ⟨c, r, hc, rfl⟩⟩ := h
  · exact ⟨k + 1, by omega, .inl rfl⟩
  · exact ⟨k + 1, by omega, .inr ⟨c, r, hc, rfl⟩⟩

theorem closing?_replicate {q : Char} {k : Nat} (hk : k ≤ 2) {rest : List Char}
    (hrest : Avoids q rest) :
    closing? q (List.replicate k q ++ ([q, q, q] ++ rest)) = some (List.replicate k q, rest) := by
  have hcases : k = 0 ∨ k = 1 ∨ k = 2 := by omega
  cases rest with
  | nil => rcases hcases with rfl | rfl | rfl <;> simp [closing?, List.replicate]
  | cons c r =>
    have hc : c ≠ q := by simpa [Avoids] using hrest
    rcases hcases with rfl | rfl | rfl <;> simp [closing?, List.replicate, hc]

/-- Two quotes close nothing. -/
theorem closing?_eq_none {q c : Char} (hc : c ≠ q) {k : Nat} (hk : k ≤ 2) (r : List Char) :
    closing? q (List.replicate k q ++ c :: r) = none := by
  have hcases : k = 0 ∨ k = 1 ∨ k = 2 := by omega
  rcases hcases with rfl | rfl | rfl <;> simp [closing?, List.replicate, hc]

/-- Where the text begins with quotes and ends before the closing ones, either these close it at once
or the first quote is a character like any other. -/
theorem closing?_of_beginsWithin {q : Char} {cs : List Char} (h : BeginsWithin 2 q cs)
    {rest : List Char} (hrest : Avoids q rest) :
    closing? q (cs ++ ([q, q, q] ++ rest)) = some (cs, rest) ∧ (∀ c ∈ cs, c = q) ∨
      closing? q (cs ++ ([q, q, q] ++ rest)) = none := by
  obtain ⟨k, hk, rfl | ⟨c, r, hc, rfl⟩⟩ := h
  · exact .inl ⟨closing?_replicate hk hrest, fun c hc => List.eq_of_mem_replicate hc⟩
  · rw [List.append_assoc]
    exact .inr (closing?_eq_none hc hk _)

/-! ## a text over several lines -/

/-- An escape begins with a backslash, or is a character that needs none. -/
theorem escape_avoids {c q : Char} (hq : q ≠ '\\') (hc : c = q → isControl c = true)
    (r : List Char) : Avoids q (escape c ++ r) := by
  unfold Avoids
  obtain ⟨l, hl, -⟩ | ⟨-, hu⟩ | ⟨hplain, -, hc'⟩ := escape_cases c
  · simp [hl, hq.symm]
  · simp [hu, hq.symm]
  · have hne : c ≠ q := fun h => by simp [hc h] at hplain
    simp [hc', hne]

theorem escapeLines_beginsWithin {run : Nat} (hrun : run ≤ 2) (s : List Char) :
    BeginsWithin (2 - run) '"' (escapeLines run s) := by
  fun_induction escapeLines run s with
  | case1 => exact ⟨0, Nat.zero_le _, .inl rfl⟩
  | case2 r ih => exact .of_ne (by decide) _
  | case3 run r hne ih =>
    have h := (ih (by omega)).cons
    rwa [show 2 - (run + 1) + 1 = 2 - run by omega] at h
  | case4 run r ih => exact .of_ne (by decide) _
  | case5 run c r hquote hline ih =>
    exact .of_avoids (escape_avoids (by decide) (fun h => absurd h hquote) _)

/-- Only quotes are written as they stand, if nothing but quotes is written. -/
theorem eq_of_escapeLines_quotes {run : Nat} {s : List Char} (h : ∀ c ∈ escapeLines run s, c = '"') :
    escapeLines run s = s := by
  fun_induction escapeLines run s with
  | case1 => rfl
  | case2 r ih => exact absurd (h '\\' (by simp)) (by decide)
  | case3 run r hne ih => rw [ih fun c hc => h c (List.mem_cons_of_mem _ hc)]
  | case4 run r ih => exact absurd (h '\n' (by simp)) (by decide)
  | case5 run c r hquote hline ih =>
    obtain ⟨l, hl, -⟩ | ⟨-, hu⟩ | ⟨-, -, hplain⟩ := escape_cases c
    · exact absurd (h '\\' (by simp [hl])) (by decide)
    · exact absurd (h '\\' (by simp [hu])) (by decide)
    · exact absurd (h c (by simp [hplain])) hquote

theorem readLines_letter {l : Char} (hl : l ∉ ['x', 'u', 'U', '\n', '\r'])
    (hblank : isBlank l = false) (r : List Char) :
    readLines .off ('\\' :: l :: r) = put (ofLetter? l) (readLines .off r) := by
  simp only [List.mem_cons, List.not_mem_nil, or_false, not_or] at hl
  obtain ⟨hx, hu, hU, hn, hr⟩ := hl
  rw [readLines.eq_def]
  split <;> simp_all
  next hno heq _ => exact absurd heq.2.symm (hno _ _ heq.1.symm)

theorem readLines_plain {c : Char} (hslash : c ≠ '\\') (hc : isControl c = false ∨ c = '\n')
    {r : List Char} (hclosing : closing? '"' (c :: r) = none) :
    readLines .off (c :: r) = put (some c) (readLines .off r) := by
  have hreturn : c ≠ '\r' := by
    rintro rfl
    revert hc
    decide
  rw [readLines.eq_def]
  split <;> simp_all
  rcases hc with hc | hc <;> simp [hc]

theorem readLines_escape {c : Char} (hquote : c ≠ '"') (r : List Char) :
    readLines .off (escape c ++ r) = put (some c) (readLines .off r) := by
  obtain ⟨l, hl, hletter, hblank, hmem⟩ | ⟨hc, hu⟩ | ⟨hc, hslash, hplain⟩ := escape_cases c
  · rw [hl, ← hletter]
    exact readLines_letter hmem hblank r
  · rw [hu, ← ofHex?_hexLetter hc]
    rfl
  · rw [hplain]
    exact readLines_plain hslash (.inl hc) (closing?_eq_none hquote (Nat.zero_le 2) r)

theorem readLines_closing {r : List Char} {e : List Char × List Char}
    (h : closing? '"' ('"' :: r) = some e) : readLines .off ('"' :: r) = some e := by
  rw [readLines.eq_def]
  split <;> simp_all

/-- **A text over several lines with escapes reads back**, also when quotes have been written before
it. -/
theorem readLines_escapeLines {run : Nat} (hrun : run ≤ 2) (s : List Char) {rest : List Char}
    (hrest : Avoids '"' rest) :
    readLines .off (escapeLines run s ++ (['"', '"', '"'] ++ rest)) = some (s, rest) := by
  fun_induction escapeLines run s with
  | case1 =>
    exact readLines_closing (closing?_replicate (Nat.zero_le 2) hrest)
  | case2 r ih =>
    show readLines .off ('\\' :: '"' :: (escapeLines 0 r ++ (['"', '"', '"'] ++ rest))) = _
    rw [readLines_letter (by decide) (by decide), ih (by omega)]
    rfl
  | case3 run r hne ih =>
    have hbegins : BeginsWithin (2 - (run + 1) + 1) '"' ('"' :: escapeLines (run + 1) r) :=
      (escapeLines_beginsWithin (by omega) r).cons
    obtain ⟨k, hk, hcs⟩ := hbegins
    obtain ⟨hclosing, hquotes⟩ | hclosing :=
      closing?_of_beginsWithin ⟨k, by omega, hcs⟩ hrest
    · rw [List.forall_mem_cons] at hquotes
      rw [eq_of_escapeLines_quotes hquotes.2] at hclosing ⊢
      exact readLines_closing hclosing
    · rw [List.cons_append] at hclosing ⊢
      rw [readLines_plain (by decide) (.inl rfl) hclosing, ih (by omega)]
      rfl
  | case4 run r ih =>
    show readLines .off ('\n' :: (escapeLines 0 r ++ (['"', '"', '"'] ++ rest))) = _
    rw [readLines_plain (by decide) (.inr rfl) (closing?_eq_none (by decide) (Nat.zero_le 2) _),
      ih (by omega)]
    rfl
  | case5 run c r hquote hline ih =>
    rw [List.append_assoc, readLines_escape hquote, ih (by omega)]
    rfl

/-! ## a text over several lines as it stands -/

theorem hasRun_of_cons {q c : Char} {s : List Char} (h : hasRun q (c :: s) = false) :
    hasRun q s = false := by
  simp_all [hasRun]

theorem beginsWithin_of_hasRun {q : Char} {s : List Char} (h : hasRun q s = false) :
    BeginsWithin 2 q s := by
  match s with
  | [] => exact ⟨0, Nat.zero_le 2, .inl rfl⟩
  | c :: s =>
    by_cases hc : c = q
    · subst hc
      match s with
      | [] => exact ⟨1, by omega, .inl rfl⟩
      | d :: s =>
        by_cases hd : d = c
        · subst hd
          match s with
          | [] => exact ⟨2, by omega, .inl rfl⟩
          | e :: s => exact ⟨2, by omega, .inr ⟨e, s, by rintro rfl; simp [hasRun] at h, rfl⟩⟩
        · exact (BeginsWithin.of_ne (n := 1) hd s).cons
    · exact .of_ne hc s

theorem readLiteralLines_closing {r : List Char} {e : List Char × List Char}
    (h : closing? '\'' ('\'' :: r) = some e) : readLiteralLines ('\'' :: r) = some e := by
  rw [readLiteralLines.eq_def]
  split <;> simp_all

theorem readLiteralLines_plain {c : Char} (hc : isControl c = false ∨ c = '\n') {r : List Char}
    (hclosing : closing? '\'' (c :: r) = none) :
    readLiteralLines (c :: r) = put (some c) (readLiteralLines r) := by
  have hreturn : c ≠ '\r' := by
    rintro rfl
    revert hc
    decide
  rw [readLiteralLines.eq_def]
  split <;> simp_all
  rcases hc with hc | hc <;> simp [hc]

theorem readLiteralLines_append {s : List Char}
    (hcontrol : ∀ c ∈ s, isControl c = false ∨ c = '\n') (hrun : hasRun '\'' s = false)
    {rest : List Char} (hrest : Avoids '\'' rest) :
    readLiteralLines (s ++ (['\'', '\'', '\''] ++ rest)) = some (s, rest) := by
  induction s with
  | nil => exact readLiteralLines_closing (closing?_replicate (Nat.zero_le 2) hrest)
  | cons c s ih =>
    rw [List.forall_mem_cons] at hcontrol
    obtain ⟨hclosing, hquotes⟩ | hclosing :=
      closing?_of_beginsWithin (beginsWithin_of_hasRun hrun) hrest
    · cases hquotes c List.mem_cons_self
      exact readLiteralLines_closing hclosing
    · rw [List.cons_append] at hclosing ⊢
      rw [readLiteralLines_plain hcontrol.1 hclosing, ih hcontrol.2 (hasRun_of_cons hrun)]
      rfl

/-! ## the four forms -/

theorem of_eq_literal {s : List Char} (h : Form.of s = .literal) :
    (∀ c ∈ s, isControl c = false) ∧ '\'' ∉ s := by
  unfold Form.of at h
  dsimp only at h
  repeat' split at h
  all_goals cases h
  next hliteral =>
    simp only [Bool.and_eq_true, Bool.not_eq_true', List.any_eq_false, bne_iff_ne, ne_eq,
      List.contains_eq_mem, decide_eq_false_iff_not, not_and, Decidable.not_not] at hliteral
    obtain ⟨⟨hescapes, hline⟩, hquote⟩ := hliteral
    refine ⟨fun c hc => ?_, hquote⟩
    rw [← Bool.not_eq_true]
    intro hcontrol
    exact hline (hescapes c hc hcontrol ▸ hc)

theorem of_eq_literalLines {s : List Char} (h : Form.of s = .literalLines) :
    (∀ c ∈ s, isControl c = false ∨ c = '\n') ∧ hasRun '\'' s = false := by
  unfold Form.of at h
  dsimp only at h
  repeat' split at h
  all_goals cases h
  next hlines =>
    simp only [Bool.and_eq_true, Bool.not_eq_true', List.any_eq_false, bne_iff_ne, ne_eq,
      not_and, Decidable.not_not] at hlines
    obtain ⟨hescapes, hrun⟩ := hlines
    refine ⟨fun c hc => ?_, hrun⟩
    rw [← Bool.not_eq_true]
    exact Decidable.or_iff_not_imp_left.mpr fun h => hescapes c hc (Decidable.not_not.mp h)

theorem escapeLine_avoids (s : List Char) : Avoids '"' (escapeLine s) := by
  fun_cases escapeLine s with
  | case1 => simp [Avoids]
  | case2 r => simp [Avoids]
  | case3 r => simp [Avoids]
  | case4 c r hquote hline =>
    exact escape_avoids (by decide) (fun h => absurd h hquote) _

theorem escapeLines_avoids (run : Nat) (s : List Char) : Avoids '\r' (escapeLines run s) := by
  fun_cases escapeLines run s with
  | case1 => simp [Avoids]
  | case2 r => simp [Avoids]
  | case3 r => simp [Avoids]
  | case4 r => simp [Avoids]
  | case5 c r hquote hline =>
    exact escape_avoids (by decide) (fun h => by rw [h]; decide) _

theorem avoids_of_not_mem {q : Char} {s : List Char} (h : q ∉ s) : Avoids q s := by
  intro hhead
  exact h (List.mem_of_mem_head? hhead)

/-- A text that begins with no quote is not taken for one over several lines. -/
theorem Avoids.not_two {q : Char} {body rest : List Char} (hbody : Avoids q body)
    (hrest : Avoids q rest) (t : List Char) : body ++ ([q] ++ rest) ≠ q :: q :: t := by
  unfold Avoids at hbody hrest
  cases body with
  | nil =>
    intro h
    simp only [List.nil_append, List.cons_append, List.cons.injEq, true_and] at h
    simp [h] at hrest
  | cons c r =>
    intro h
    rw [List.cons_append, List.cons.injEq] at h
    simp [h.1] at hbody

/-- Only an empty text begins with a second quote. -/
theorem read?_basic {r : List Char} (h : ∀ t, r ≠ '"' :: '"' :: t) :
    read? ('"' :: r) = readBasic r := by
  rw [read?.eq_def]
  split <;> simp_all

theorem read?_literal {r : List Char} (h : ∀ t, r ≠ '\'' :: '\'' :: t) :
    read? ('\'' :: r) = readLiteral r := by
  rw [read?.eq_def]
  split <;> simp_all

/-- The line end behind the opening quotes is the one that has been written there. -/
theorem dropLineEnd_surround {q : Char} (hq : q ≠ '\n' ∧ q ≠ '\r') {body : List Char}
    (hreturn : Avoids '\r' body) (rest : List Char) :
    dropLineEnd ((if body.contains '\n' then ['\n'] else []) ++ body ++ ([q, q, q] ++ rest)) =
      body ++ ([q, q, q] ++ rest) := by
  by_cases hline : body.contains '\n' = true
  · rw [if_pos hline]
    rfl
  · rw [if_neg hline]
    obtain ⟨hq, hqr⟩ := hq
    cases body with
    | nil =>
      rw [dropLineEnd.eq_def]
      simp only [List.nil_append, List.cons_append]
      split <;> simp_all
    | cons c r =>
      unfold Avoids at hreturn
      rw [dropLineEnd.eq_def]
      split <;> simp_all

/-- **Every text reads back** from the form in which it is written, whatever follows but quotes. -/
theorem read?_write {s rest : List Char} (hdouble : Avoids '"' rest) (hsingle : Avoids '\'' rest) :
    read? (write s ++ rest) = some (s, rest) := by
  unfold write
  cases hform : Form.of s with
  | basic =>
    show read? ('"' :: (escapeLine s ++ ['"'] ++ rest)) = _
    rw [List.append_assoc, read?_basic ((escapeLine_avoids s).not_two hdouble)]
    exact readBasic_escapeLine s rest
  | literal =>
    obtain ⟨hcontrol, hquote⟩ := of_eq_literal hform
    show read? ('\'' :: (s ++ ['\''] ++ rest)) = _
    rw [List.append_assoc, read?_literal ((avoids_of_not_mem hquote).not_two hsingle)]
    exact readLiteral_append hcontrol hquote rest
  | lines =>
    have hread := readLines_escapeLines (Nat.zero_le 2) s hdouble
    rw [← dropLineEnd_surround ⟨by decide, by decide⟩ (escapeLines_avoids 0 s)] at hread
    rw [← hread]
    simp [Form.write, surround, read?]
  | literalLines =>
    obtain ⟨hcontrol, hrun⟩ := of_eq_literalLines hform
    have hreturn : '\r' ∉ s := fun h => absurd (hcontrol '\r' h) (by decide)
    have hread := readLiteralLines_append hcontrol hrun hsingle
    rw [← dropLineEnd_surround ⟨by decide, by decide⟩ (avoids_of_not_mem hreturn)] at hread
    rw [← hread]
    simp [Form.write, surround, read?]

end ArmServo.Toml.Quote
