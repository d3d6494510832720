import Mathlib.Data.List.Forall2

/-!
# Lists that are related entry by entry

Joints and handles, entries of a description and what becomes of them, limits and positions: lists of
one length whose entries belong together. Here is what that says of single entries, of what is read
off the entries, and of parts of the lists.
-/

namespace ArmServo

variable {β γ δ : Type} {R : β → γ → Prop}

theorem exists_of_forall₂ {bs : List β} {cs : List γ} (h : List.Forall₂ R bs cs) {b : β}
    (hb : b ∈ bs) : ∃ c ∈ cs, R b c := by
  induction h with
  | nil => cases hb
  | cons hr _ ih =>
    rcases List.mem_cons.mp hb with rfl | hb
    · exact ⟨_, List.mem_cons_self, hr⟩
    · obtain ⟨c, hc, hbc⟩ := ih hb
      exact ⟨c, List.mem_cons_of_mem _ hc, hbc⟩

theorem exists_forall₂_iff {bs : List β} :
    (∃ cs, List.Forall₂ R bs cs) ↔ ∀ b ∈ bs, ∃ c, R b c := by
  induction bs with
  | nil => exact ⟨fun _ _ hb => (nomatch hb), fun _ => ⟨[], .nil⟩⟩
  | cons b bs ih =>
    rw [List.forall_mem_cons, ← ih]
    constructor
    · rintro ⟨_, _ | ⟨hc, hk⟩⟩
      exact ⟨⟨_, hc⟩, _, hk⟩
    · rintro ⟨⟨c, hc⟩, cs, hcs⟩
      exact ⟨c :: cs, .cons hc hcs⟩

/-- Entries that agree in what is read off them. -/
theorem forall₂_map_eq_iff {f : β → δ} {g : γ → δ} {bs : List β} {cs : List γ} :
    List.Forall₂ (fun b c => f b = g c) bs cs ↔ bs.map f = cs.map g := by
  have h := congrFun (congrFun (List.forall₂_eq_eq_eq (α := δ)) (bs.map f)) (cs.map g)
  rw [← h, List.forall₂_map_left_iff, List.forall₂_map_right_iff]

theorem forall₂_append_right {bs : List β} {cs₁ cs₂ : List γ}
    (h : List.Forall₂ R bs (cs₁ ++ cs₂)) :
    ∃ bs₁ bs₂, bs = bs₁ ++ bs₂ ∧ List.Forall₂ R bs₁ cs₁ ∧ List.Forall₂ R bs₂ cs₂ :=
  ⟨bs.take cs₁.length, bs.drop cs₁.length, (List.take_append_drop _ _).symm,
    List.forall₂_take_append bs cs₁ cs₂ h, List.forall₂_drop_append bs cs₁ cs₂ h⟩

theorem forall₂_zip {S : β → δ → Prop} {bs : List β} {cs : List γ} {ds : List δ}
    (hr : List.Forall₂ R bs cs) (hs : List.Forall₂ S bs ds) :
    List.Forall₂ (fun b x => R b x.1 ∧ S b x.2) bs (cs.zip ds) := by
  induction hr generalizing ds with
  | nil =>
    cases hs
    exact .nil
  | cons h _ ih =>
    cases hs with
    | cons h' hs => exact .cons ⟨h, h'⟩ (ih hs)

end ArmServo
