import ArmServo.Scalar

/-!
# Effects, one after the other

A computation with a state and a failure ends in a state also when it fails. `run_bind` says what a
sequence of two does; with it and the lemmas on single effects an operation is computed without
unfolding the monads. `bind_eq_ok` and `guard_eq_ok` take apart a result without a state,
`bind_eq_error` and `guard_eq_error` a failure, `ofFnM_eq_some_iff` and `ofFnM_eq_none_iff` a row of
results, and `Alike` compares two results.
-/

namespace ArmServo

variable {ε σ β γ : Type}

theorem run_bind (x : ExceptT ε (StateM σ) β) (f : β → ExceptT ε (StateM σ) γ) (s : σ) :
    (x >>= f).run s = match x.run s with
      | (.ok b, t) => (f b).run t
      | (.error e, t) => (.error e, t) := by
  show (ExceptT.bindCont f (x.run s).1) (x.run s).2 = _
  rcases x.run s with ⟨_ | _, t⟩ <;> rfl

theorem run_pure (b : β) (s : σ) : (pure b : ExceptT ε (StateM σ) β).run s = (.ok b, s) := rfl

theorem run_throw (e : ε) (s : σ) :
    (throw e : ExceptT ε (StateM σ) β).run s = (.error e, s) := rfl

theorem run_get (s : σ) : (get : ExceptT ε (StateM σ) σ).run s = (.ok s, s) := rfl

theorem run_modify (f : σ → σ) (s : σ) :
    (modify f : ExceptT ε (StateM σ) PUnit).run s = (.ok ⟨⟩, f s) := rfl

theorem run_liftM (x : Except ε β) (s : σ) :
    (liftM x : ExceptT ε (StateM σ) β).run s = (x, s) := rfl

theorem run_ite (c : Prop) [Decidable c] (x y : ExceptT ε (StateM σ) β) (s : σ) :
    (if c then x else y).run s = if c then x.run s else y.run s := by
  split <;> rfl

/-! ## results without a state -/

theorem bind_eq_ok {x : Except ε β} {f : β → Except ε γ} {c : γ} :
    (x >>= f) = .ok c ↔ ∃ b, x = .ok b ∧ f b = .ok c := by
  constructor
  · intro h
    cases x with
    | error e => cases h
    | ok b => exact ⟨b, rfl, h⟩
  · rintro ⟨b, rfl, h⟩
    exact h

theorem map_eq_error {x : Except ε β} {f : β → γ} {e : ε} : x.map f = .error e ↔ x = .error e := by
  cases x with
  | error e' =>
    constructor <;>
    · intro h
      cases h
      rfl
  | ok b => exact ⟨nofun, nofun⟩

theorem mapError_eq_ok {ε' : Type} {f : ε → ε'} {x : Except ε β} {b : β} :
    x.mapError f = .ok b ↔ x = .ok b := by
  cases x with
  | error e => exact ⟨nofun, nofun⟩
  | ok a => exact ⟨fun h => congrArg _ (Except.ok.inj h), fun h => congrArg _ (Except.ok.inj h)⟩

theorem bind_eq_error {x : Except ε β} {f : β → Except ε γ} {e : ε} :
    (x >>= f) = .error e ↔ x = .error e ∨ ∃ b, x = .ok b ∧ f b = .error e := by
  cases x with
  | error e' =>
    constructor
    · intro h
      exact .inl (congrArg _ (Except.error.inj h))
    · rintro (h | ⟨b, hb, -⟩)
      · exact congrArg _ (Except.error.inj h)
      · cases hb
  | ok b =>
    constructor
    · exact fun h => .inr ⟨b, rfl, h⟩
    · rintro (h | ⟨_, hb, h⟩)
      · cases h
      · cases hb
        exact h

theorem mapError_eq_error {ε' : Type} {f : ε → ε'} {x : Except ε β} {e' : ε'} :
    x.mapError f = .error e' ↔ ∃ e, x = .error e ∧ f e = e' := by
  cases x with
  | error e => exact ⟨fun h => ⟨e, rfl, Except.error.inj h⟩, fun ⟨_, rfl, h⟩ => congrArg _ h⟩
  | ok b => exact ⟨nofun, fun ⟨_, h, _⟩ => nomatch h⟩

theorem exists_ok_of_isOk {x : Except ε β} (h : x.isOk = true) : ∃ b, x = .ok b := by
  cases x with
  | error e => cases h
  | ok b => exact ⟨b, rfl⟩

/-- A test that fails with an error before the rest. -/
theorem guard_eq_ok {p : Prop} [Decidable p] {e : ε} {f : β → Except ε γ} {x : Except ε γ} {c : γ} :
    (if p then throw e >>= f else x) = .ok c ↔ ¬ p ∧ x = .ok c := by
  by_cases hp : p
  · rw [if_pos hp]
    exact ⟨fun h => (nomatch h), fun h => absurd hp h.1⟩
  · rw [if_neg hp]
    exact ⟨fun h => ⟨hp, h⟩, And.right⟩

theorem guard_eq_error {p : Prop} [Decidable p] {e e' : ε} {f : β → Except ε γ}
    {x : Except ε γ} :
    (if p then throw e >>= f else x) = .error e' ↔ p ∧ e = e' ∨ ¬ p ∧ x = .error e' := by
  by_cases hp : p
  · rw [if_pos hp]
    exact ⟨fun h => .inl ⟨hp, Except.error.inj h⟩,
      fun h => h.elim (fun h => congrArg _ h.2) fun h => absurd hp h.1⟩
  · rw [if_neg hp]
    exact ⟨fun h => .inr ⟨hp, h⟩, fun h => h.elim (fun h => absurd h.1 hp) And.right⟩

/-! ## a row of results -/

/-- The induction is on the length of the row, whose last entry is made last. -/
theorem ofFnM_eq_some_iff {n : Nat} {f : Fin n → Option β} {v : Vector β n} :
    Vector.ofFnM f = some v ↔ ∀ i, f i = some v[i] := by
  constructor
  · intro h
    induction n with
    | zero => exact fun i => i.elim0
    | succ n ih =>
      rw [Vector.ofFnM_succ] at h
      obtain ⟨w, hw, hlast⟩ := Option.bind_eq_some_iff.mp h
      obtain ⟨x, hx, hv⟩ := Option.bind_eq_some_iff.mp hlast
      cases hv
      refine Fin.lastCases ?_ fun i => ?_
      · simpa using hx
      · simpa using ih hw i
  · intro h
    have hf : f = fun i => pure v[i] := funext h
    rw [hf, Vector.ofFnM_pure]
    simp [pure]

theorem ofFnM_eq_none_iff {n : Nat} {f : Fin n → Option β} :
    Vector.ofFnM f = none ↔ ∃ i, f i = none := by
  cases h : Vector.ofFnM f with
  | some v =>
    refine ⟨nofun, fun ⟨i, hi⟩ => ?_⟩
    rw [ofFnM_eq_some_iff.mp h i] at hi
    cases hi
  | none =>
    refine iff_of_true rfl (Classical.byContradiction fun hall => ?_)
    simp only [not_exists, ← Option.isSome_iff_ne_none] at hall
    have hw : Vector.ofFnM f = some (Vector.ofFn fun i => (f i).get (hall i)) :=
      ofFnM_eq_some_iff.mpr fun i => by simp
    rw [h] at hw
    cases hw

/-! ## results that are related -/

/-- Both fail with the same error, or both have a result and the results are related. -/
inductive Alike (R : β → γ → Prop) : Except ε β → Except ε γ → Prop
  | error (e : ε) : Alike R (.error e) (.error e)
  | ok {b : β} {c : γ} (h : R b c) : Alike R (.ok b) (.ok c)

theorem Alike.map {β' γ' : Type} {R : β → γ → Prop} {S : β' → γ' → Prop} {f : β → β'} {g : γ → γ'}
    {x : Except ε β} {y : Except ε γ} (h : Alike R x y) (hS : ∀ b c, R b c → S (f b) (g c)) :
    Alike S (x.map f) (y.map g) := by
  cases h with
  | error e => exact .error e
  | ok h => exact .ok (hS _ _ h)

theorem Alike.exists_ok {R : β → γ → Prop} {x : Except ε β} {y : Except ε γ} (h : Alike R x y)
    {b : β} (hb : x = .ok b) : ∃ c, y = .ok c ∧ R b c := by
  cases h with
  | error e => cases hb
  | ok h =>
    cases hb
    exact ⟨_, rfl, h⟩

end ArmServo
