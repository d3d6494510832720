import Mathlib
import ArmServo.Proofs.Decimal.Text
import ArmServo.Toml.Numeral
import ArmServo.Toml.Writer

/-!
# Numbers read back

A double that is a number is written as a sign, digits, a point and digits, or as an infinity by name,
and is read back as it was, bit by bit, whatever delimiter follows.

Main statement: `read?_writeNumber`.
-/

namespace ArmServo.Toml

open Decimal (Pointed ofPointed withPoint)

/-- A minus, if there is one. -/
def signChars (negative : Bool) : List Char := if negative then ['-'] else []

/-! ## what is written -/

theorem toList_withPoint_sign (negative : Bool) (s : String) :
    (withPoint ((if negative then "-" else "") ++ s)).toList =
      signChars negative ++ (withPoint s).toList := by
  have hsign : (if negative then "-" else "").toList = signChars negative := by
    cases negative <;> rfl
  have hmem : '.' ∈ ((if negative then "-" else "") ++ s).toList ↔ '.' ∈ s.toList := by
    rw [String.toList_append, hsign, List.mem_append]
    cases negative <;> simp [signChars]
  by_cases h : '.' ∈ s.toList
  · rw [Decimal.toList_withPoint_of_mem h, Decimal.toList_withPoint_of_mem (hmem.mpr h),
      String.toList_append, hsign]
  · rw [Decimal.toList_withPoint_of_not_mem h,
      Decimal.toList_withPoint_of_not_mem (fun hs => h (hmem.mp hs)), String.toList_append, hsign,
      List.append_assoc]

/-- A finite number is written as a decimal that reads back. -/
theorem toList_writeNumber_finite {x : Float} {negative : Bool} {m : Nat} {e : Int}
    (h : Exact.ofFloat x = .finite negative m e) {bits : Nat} (hbits : bits < Exact.infinityBits)
    (hexact : Exact.ofBits bits = .finite false m e) :
    ∃ d : Decimal, d.nearestBits = bits ∧
      (writeNumber x).toList = signChars negative ++ (withPoint d.positional).toList := by
  have hwrite : writeNumber x = withPoint ((if negative then "-" else "") ++
      if m = 0 then "0" else (Decimal.shortest m e).positional) := by
    unfold writeNumber display
    rw [h]
    rfl
  by_cases hm : m = 0
  · refine ⟨⟨0, 0⟩, ?_, ?_⟩
    · rw [← Ratio.nearestBits_ofBinary hbits hexact, hm, Decimal.nearestBits_zero,
        Ratio.nearestBits_of_num_eq_zero (Ratio.ofBinary_zero_num e)]
    · rw [hwrite, if_pos hm, toList_withPoint_sign]
      rfl
  · refine ⟨Decimal.shortest m e, Decimal.nearestBits_shortest hbits hexact, ?_⟩
    rw [hwrite, if_neg hm, toList_withPoint_sign]

/-- **How a number is written.** -/
theorem writeNumber_cases {x : Float} (hx : x.isNaN = false) :
    (∃ negative, (writeNumber x).toList = signChars negative ++ ['i', 'n', 'f'] ∧
      x = if negative then -Exact.infinity else Exact.infinity) ∨
    ∃ negative front back, Pointed front back ∧
      (writeNumber x).toList = signChars negative ++ (front ++ '.' :: back) ∧
      Numeral.ofMagnitude negative (ofPointed front back).toFloat = .number x := by
  rcases Binary64.exact_cases hx with ⟨negative, hexact, hvalue⟩ |
    ⟨negative, m, e, bits, hexact, hbits, hmagnitude, hfinite, hvalue⟩
  · refine .inl ⟨negative, ?_, hvalue⟩
    unfold writeNumber display
    rw [hexact]
    cases negative <;> rfl
  · right
    obtain ⟨d, hd, htext⟩ := toList_writeNumber_finite hexact hbits hmagnitude
    obtain ⟨front, back, hpointed, hpoint, hread⟩ := d.exists_pointed
    refine ⟨negative, front, back, hpointed, by rw [htext, hpoint], ?_⟩
    unfold Numeral.ofMagnitude Decimal.toFloat
    rw [hread, hd, hfinite, if_neg Bool.false_ne_true, ← hvalue]

namespace Numeral

/-! ## a token with a point -/

variable {front back : List Char} {negative : Bool}

theorem takeWhile_digits (h : ∀ c ∈ front, c.isDigit = true) (r : List Char) :
    (front ++ '.' :: r).takeWhile Char.isDigit = front ∧
      (front ++ '.' :: r).dropWhile Char.isDigit = '.' :: r := by
  rw [List.takeWhile_append_of_pos h, List.dropWhile_append_of_pos h]
  simp

theorem isDigit_of_pointed_eq (h : Pointed front back) {c : Char} {r : List Char}
    (hc : front ++ '.' :: back = c :: r) : c.isDigit = true := by
  obtain ⟨d, t, rfl⟩ := List.exists_cons_of_ne_nil h.front_ne_nil
  rw [List.cons_append, List.cons.injEq] at hc
  rw [← hc.1]
  exact h.front_digits d List.mem_cons_self

theorem hasNeedlessZero_pointed (h : Pointed front back) :
    hasNeedlessZero (front ++ '.' :: back) = false := by
  unfold hasNeedlessZero
  split
  · next c r hzero =>
    have hfront : front = ['0'] := by
      obtain ⟨d, t, rfl⟩ := List.exists_cons_of_ne_nil h.front_ne_nil
      rw [List.cons_append, List.cons.injEq] at hzero
      exact h.front_zero (by rw [hzero.1]; rfl)
    rw [hfront] at hzero
    cases hzero
    decide
  · rfl

theorem unsign_pointed (h : Pointed front back) :
    Decimal.unsign (signChars negative ++ (front ++ '.' :: back)) =
      (negative, front ++ '.' :: back) := by
  cases negative with
  | true => rfl
  | false =>
    obtain ⟨c, r, rfl⟩ := List.exists_cons_of_ne_nil h.front_ne_nil
    have hc := h.front_digits c List.mem_cons_self
    show Decimal.unsign (c :: (r ++ '.' :: back)) = _
    unfold Decimal.unsign
    split <;> simp_all

theorem read?_pointed (h : Pointed front back) :
    Decimal.read? (front ++ '.' :: back) = some (ofPointed front back) := by
  have hback : back.takeWhile Char.isDigit = back ∧ back.dropWhile Char.isDigit = [] := by
    rw [← List.append_nil back, List.takeWhile_append_of_pos h.back_digits,
      List.dropWhile_append_of_pos h.back_digits]
    simp
  obtain ⟨hfront, hpoint⟩ := takeWhile_digits h.front_digits back
  unfold Decimal.read?
  simp only [hfront, hpoint, Decimal.fraction, hback]
  rw [if_neg (by simp [h.front_ne_nil])]
  simp [Decimal.exponent?, ofPointed]

theorem dropDigits?_append {digits : List Char} (hne : digits ≠ [])
    (h : ∀ c ∈ digits, c.isDigit = true) {r : List Char} (hr : r.takeWhile isGrouped = []) :
    dropDigits? (digits ++ r) = some r := by
  have hgrouped : ∀ c ∈ digits, isGrouped c = true := fun c hc => by simp [isGrouped, h c hc]
  have hdrop : r.dropWhile isGrouped = r := by
    have := List.takeWhile_append_dropWhile (p := isGrouped) (l := r)
    rwa [hr] at this
  unfold dropDigits?
  rw [List.takeWhile_append_of_pos hgrouped, List.dropWhile_append_of_pos hgrouped, hr, hdrop,
    List.append_nil, if_pos]
  obtain ⟨c, l, rfl⟩ := List.exists_cons_of_ne_nil hne
  exact List.any_eq_true.mpr ⟨c, List.mem_cons_self, h c List.mem_cons_self⟩

theorem isFractional_pointed (h : Pointed front back) :
    isFractional (front ++ '.' :: back) = true := by
  have hback : dropDigits? back = some [] := by
    simpa using dropDigits?_append h.back_ne_nil h.back_digits (r := []) rfl
  have hfront := dropDigits?_append h.front_ne_nil h.front_digits (r := '.' :: back) rfl
  unfold isFractional
  rw [hfront]
  show (dropDigits? back >>= dropExponent?) == some []
  rw [hback]
  rfl

theorem split_of_not_mem {q : Char} {cs : List Char} (h : q ∉ cs) : Text.split q cs = [cs] := by
  induction cs with
  | nil => rfl
  | cons c cs ih =>
    rw [List.mem_cons, not_or] at h
    unfold Text.split
    rw [if_neg (Ne.symm h.1), ih h.2]

theorem ungroup?_of_not_mem {p : Char → Bool} {cs : List Char} (h : '_' ∉ cs) :
    ungroup? p cs = some cs := by
  unfold ungroup?
  rw [split_of_not_mem h]
  simp

theorem mem_pointed (h : Pointed front back) {c : Char}
    (hc : c ∈ signChars negative ++ (front ++ '.' :: back)) :
    c = '-' ∨ c = '.' ∨ c.isDigit = true := by
  simp only [List.mem_append, List.mem_cons] at hc
  rcases hc with hc | hc | rfl | hc
  · cases negative <;> simp_all [signChars]
  · exact .inr (.inr (h.front_digits c hc))
  · exact .inr (.inl rfl)
  · exact .inr (.inr (h.back_digits c hc))

theorem not_mem_pointed (h : Pointed front back) {c : Char} (hminus : c ≠ '-') (hpoint : c ≠ '.')
    (hdigit : c.isDigit = false) : c ∉ signChars negative ++ (front ++ '.' :: back) := by
  intro hc
  rcases mem_pointed h hc with rfl | rfl | hc
  · exact hminus rfl
  · exact hpoint rfl
  · simp [hdigit] at hc

theorem signed?_pointed (h : Pointed front back) :
    signed? (signChars negative ++ (front ++ '.' :: back)) =
      some (ofMagnitude negative (ofPointed front back).toFloat) := by
  obtain ⟨hfront, hpoint⟩ := takeWhile_digits h.front_digits back
  have hungroup : ungroup? Char.isDigit (signChars negative ++ (front ++ '.' :: back)) = some _ :=
    ungroup?_of_not_mem (not_mem_pointed h (by decide) (by decide) (by decide))
  have hdecimal : ofDecimal? (signChars negative ++ (front ++ '.' :: back)) =
      some (ofMagnitude negative (ofPointed front back).toFloat) := by
    unfold ofDecimal?
    rw [unsign_pointed h]
    dsimp only
    rw [read?_pointed h]
    rfl
  unfold signed?
  rw [unsign_pointed h]
  simp only [hpoint]
  split
  · next hname => exact absurd (isDigit_of_pointed_eq h hname) (by decide)
  · next hname => exact absurd (isDigit_of_pointed_eq h hname) (by decide)
  · rw [if_neg (by simp [hasNeedlessZero_pointed h]), if_pos (by simp),
      if_pos (isFractional_pointed h), hungroup]
    exact hdecimal

theorem not_mem_tail_pointed (h : Pointed front back) :
    '-' ∉ (signChars negative ++ (front ++ '.' :: back)).tail := by
  have hmagnitude : '-' ∉ front ++ '.' :: back := by
    intro hc
    rcases List.mem_append.mp hc with hc | hc
    · exact absurd (h.front_digits _ hc) (by decide)
    · rcases List.mem_cons.mp hc with hc | hc
      · cases hc
      · exact absurd (h.back_digits _ hc) (by decide)
  cases negative with
  | true => exact hmagnitude
  | false => exact fun hc => hmagnitude (List.mem_of_mem_tail hc)

theorem mem_tail_of_isDate {cs : List Char} (h : Moment.isDate cs = true) : '-' ∈ cs.tail := by
  unfold Moment.isDate at h
  split at h
  · simp
  · cases h

theorem mem_of_isTime {offset : Bool} {cs : List Char} (h : Moment.isTime offset cs = true) :
    ':' ∈ cs := by
  unfold Moment.isTime at h
  split at h
  · simp
  · cases h

theorem isMoment_pointed (h : Pointed front back) :
    Moment.isMoment (signChars negative ++ (front ++ '.' :: back)) = false := by
  unfold Moment.isMoment
  split
  · next hdate =>
    have hsublist := (List.take_sublist 10 (signChars negative ++ (front ++ '.' :: back))).tail
    exact absurd (hsublist.subset (mem_tail_of_isDate hdate)) (not_mem_tail_pointed h)
  · rw [← Bool.not_eq_true]
    intro htime
    exact not_mem_pointed h (by decide) (by decide) (by decide) (mem_of_isTime htime)

theorem ofToken?_pointed (h : Pointed front back) :
    ofToken? (signChars negative ++ (front ++ '.' :: back)) =
      some (ofMagnitude negative (ofPointed front back).toFloat) := by
  have hletter : ∀ c ∈ ['t', 'f', 'x', 'o', 'b'],
      c ∉ signChars negative ++ (front ++ '.' :: back) := by
    intro c hc
    simp only [List.mem_cons, List.not_mem_nil, or_false] at hc
    rcases hc with rfl | rfl | rfl | rfl | rfl <;>
      exact not_mem_pointed h (by decide) (by decide) (by decide)
  unfold ofToken?
  split
  · next heq => exact absurd (heq ▸ by simp) (hletter 't' (by simp))
  · next heq => exact absurd (heq ▸ by simp) (hletter 'f' (by simp))
  · next heq => exact absurd (heq ▸ by simp) (hletter 'x' (by simp))
  · next heq => exact absurd (heq ▸ by simp) (hletter 'o' (by simp))
  · next heq => exact absurd (heq ▸ by simp) (hletter 'b' (by simp))
  · rw [isMoment_pointed h, if_neg Bool.false_ne_true, signed?_pointed h]

/-! ## tokens in a text -/

theorem read?_of_ofToken? {token : List Char} {v : Value}
    (htoken : ∀ c ∈ token, isDelimiter c = false) (h : ofToken? token = some v) {c : Char}
    (hc : isDelimiter c = true) (hspace : c ≠ ' ') (r : List Char) :
    read? (token ++ c :: r) = some (v, c :: r) := by
  have hall : ∀ c ∈ token, (!isDelimiter c) = true := fun c hc => by simp [htoken c hc]
  have htake : (token ++ c :: r).takeWhile (!isDelimiter ·) = token := by
    rw [List.takeWhile_append_of_pos hall]
    simp [hc]
  have hdrop : (token ++ c :: r).dropWhile (!isDelimiter ·) = c :: r := by
    rw [List.dropWhile_append_of_pos hall]
    simp [hc]
  unfold read?
  simp only [htake, hdrop, h]
  split
  · next heq => exact absurd (List.cons.inj heq).1 hspace
  · rfl

theorem isDelimiter_of_isDigit {c : Char} (h : c.isDigit = true) : isDelimiter c = false := by
  rw [← Bool.not_eq_true]
  intro hc
  simp only [isDelimiter, isBlank, Bool.or_eq_true, beq_iff_eq, or_assoc] at hc
  rcases hc with rfl | rfl | rfl | rfl | rfl | rfl | rfl | rfl | rfl | rfl | rfl <;> cases h

theorem isDelimiter_infinity {negative : Bool} {c : Char}
    (hc : c ∈ signChars negative ++ ['i', 'n', 'f']) : isDelimiter c = false := by
  have hall : ∀ d ∈ ['-', 'i', 'n', 'f'], isDelimiter d = false := by simp [isDelimiter, isBlank]
  refine hall c ?_
  cases negative <;> simp_all [signChars]

end Numeral

/-- **A number reads back bit by bit.** -/
theorem read?_writeNumber {x : Float} (hx : x.isNaN = false) {c : Char}
    (hc : Numeral.isDelimiter c = true) (hspace : c ≠ ' ') (r : List Char) :
    Numeral.read? ((writeNumber x).toList ++ c :: r) = some (.number x, c :: r) := by
  rcases writeNumber_cases hx with ⟨negative, htext, hvalue⟩ |
    ⟨negative, front, back, hpointed, htext, hvalue⟩
  · rw [htext]
    refine Numeral.read?_of_ofToken? (fun d hd => Numeral.isDelimiter_infinity hd) ?_ hc hspace r
    rw [hvalue]
    cases negative <;> rfl
  · rw [htext, ← hvalue]
    refine Numeral.read?_of_ofToken? (fun d hd => ?_) (Numeral.ofToken?_pointed hpointed) hc hspace r
    rcases Numeral.mem_pointed hpointed hd with rfl | rfl | hdigit
    · decide
    · decide
    · exact Numeral.isDelimiter_of_isDigit hdigit

end ArmServo.Toml
