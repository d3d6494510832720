import ArmServo.Proofs.Controller.Orders
import ArmServo.Proofs.Sample

/-!
# Refused orders

An order that is refused leaves no trace: the station is as it was, no joint has received a command,
and whatever happens later happens as if the order had not been given. The solver is moved in place,
so this needs that nothing is refused once the Jacobian has been written (`Solver.Steps.refused`);
the loops are stepped on a copy, so a refused output of theirs does not matter.

Main statement: `refused_orders_leave_no_trace`.
-/

namespace ArmServo

variable {H J α : Type} [Scalar α]

/-- The answer is a refusal. -/
def isRefusal : Except (Failure α) Unit → Bool
  | .error (.refused _) => true
  | _ => false

omit [Scalar α] in
theorem eq_refused_of_isRefusal {r : Except (Failure α) Unit} (h : isRefusal r = true) :
    ∃ e, r = .error (.refused e) := by
  rcases r with (e | _) | _
  · exact ⟨e, rfl⟩
  · cases h
  · cases h

/-! ## one order -/

theorem Solver.Steps.refused {s t : Solver α} {period : Period} {velocity : Axes α}
    {solve : TaskSpace.Method α} {e : ControlError α}
    (h : s.Steps period velocity solve (.error (.refused e)) t) : t = s := by
  cases h with
  | noTime => rfl
  | misfit => rfl

namespace Core

theorem Advances.refused {c d : Core α J} {error : Axes α} {period : Period}
    {solve : TaskSpace.Method α} {e : ControlError α}
    (h : c.Advances error period solve (.error (.refused e)) d) : d = c := by
  cases h with
  | noTime => rfl
  | badError => rfl
  | badOutput => rfl
  | notMoved hp he hu hi hs =>
    cases hs.refused
    rfl

theorem obeyed_of_refused {c : Core α J} {measured : List (α × α)} {o : Order α}
    {solve : TaskSpace.Method α} {e : ControlError α}
    (h : (c.obeyed measured o solve).1 = .error (.refused e)) :
    (c.obeyed measured o solve).2 = c := by
  have hadv : ∀ error period, (c.advanced error period solve).1 = .error (.refused e) →
      (c.advanced error period solve).2 = c := by
    intro error period hr
    have ha := c.advanced_advances error period solve
    rw [hr] at ha
    exact ha.refused
  cases o with
  | start =>
    unfold obeyed at h ⊢
    cases hs : c.solver.start? measured with
    | ok solver => simp [hs] at h
    | error e => rfl
  | compute error period =>
    unfold obeyed at h ⊢
    cases hm : c.mode with
    | paused => rfl
    | running => exact hadv error period (by simpa only [hm] using h)
  | tick error period =>
    unfold obeyed at h ⊢
    cases hm : c.mode with
    | paused => rfl
    | running => exact hadv error period (by simpa only [hm] using h)
  | _ => cases h

theorem outgoing_of_error {c : Core α J} {writes : CommandKind} {measured : List (α × α)}
    {o : Order α} {solve : TaskSpace.Method α} {f : Failure α}
    (h : (c.obeyed measured o solve).1 = .error f) : c.outgoing writes measured o solve = [] := by
  unfold outgoing
  split
  · cases h
  · rename_i ht
    rw [ht] at h
    cases h
  · rfl

end Core

namespace Station

variable [JointBus H J α]

theorem obey_of_refused {s : Station H J α} {o : Order α} {solve : TaskSpace.Method α}
    {e : ControlError α} (h : (s.obey o solve).1 = .error (.refused e)) :
    (s.obey o solve).2 = s ∧ s.sent o solve = [] := by
  cases hc : s.controller.core with
  | none =>
    refine ⟨?_, sent_of_no_core hc o solve⟩
    obtain ⟨e', ho⟩ | ⟨cfg, c, -, -, ho⟩ := obey_cases_of_no_core hc o solve
    · rw [ho]
    · rw [ho] at h
      cases h
  | some c =>
    rw [obey_of_core hc] at h
    have hd := Core.obeyed_of_refused h
    have hsent : c.outgoing s.controller.writes (c.measured s.hardware) o solve = [] :=
      Core.outgoing_of_error h
    refine ⟨?_, by rw [sent_of_core hc, hsent]⟩
    rw [obey_of_core hc, hd, hsent]
    exact withCore_self hc

/-! ## runs -/

/-- The events of a run without the orders that are refused in their place. -/
def heeded (s : Station H J α) (events : List (Event H α)) (solve : TaskSpace.Method α) :
    List (Event H α) :=
  match events with
  | [] => []
  | .change h :: rest => .change h :: heeded { s with hardware := h } rest solve
  | .order o :: rest =>
    if isRefusal (s.obey o solve).1 then heeded (s.obey o solve).2 rest solve
    else .order o :: heeded (s.obey o solve).2 rest solve

theorem after_heeded (s : Station H J α) (events : List (Event H α))
    (solve : TaskSpace.Method α) :
    s.after (s.heeded events solve) solve = s.after events solve := by
  induction events generalizing s with
  | nil => rfl
  | cons event rest ih =>
    cases event with
    | change h => exact ih { s with hardware := h }
    | order o =>
      unfold heeded
      cases hr : isRefusal (s.obey o solve).1 with
      | false => exact ih (s.obey o solve).2
      | true =>
        obtain ⟨e, he⟩ := eq_refused_of_isRefusal hr
        show s.after (heeded (s.obey o solve).2 rest solve) solve =
          (s.obey o solve).2.after rest solve
        rw [(obey_of_refused he).1]
        exact ih s

theorem answers_heeded (s : Station H J α) (events : List (Event H α))
    (solve : TaskSpace.Method α) :
    s.answers (s.heeded events solve) solve =
      (s.answers events solve).filter fun r => !isRefusal r := by
  induction events generalizing s with
  | nil => rfl
  | cons event rest ih =>
    cases event with
    | change h => exact ih { s with hardware := h }
    | order o =>
      have ha : s.answers (.order o :: rest) solve =
          (s.obey o solve).1 :: (s.obey o solve).2.answers rest solve := rfl
      rw [heeded, ha]
      cases hr : isRefusal (s.obey o solve).1 with
      | false =>
        rw [if_neg (by simp), List.filter_cons_of_pos (by simp [hr])]
        exact congrArg _ (ih (s.obey o solve).2)
      | true =>
        obtain ⟨e, he⟩ := eq_refused_of_isRefusal hr
        rw [(obey_of_refused he).1, if_pos rfl, List.filter_cons_of_neg (by simp [hr])]
        exact ih s

/-- **Refused orders leave no trace.** An order that is refused leaves the controller and the
hardware as they were and sends no command. A run without the refused orders ends in the same station
and gives the same answers to all others. -/
theorem refused_orders_leave_no_trace (s : Station H J α) (solve : TaskSpace.Method α) :
    (∀ (o : Order α) (e : ControlError α), (s.obey o solve).1 = .error (.refused e) →
      (s.obey o solve).2 = s ∧ s.sent o solve = []) ∧
    ∀ events : List (Event H α),
      s.after (s.heeded events solve) solve = s.after events solve ∧
      s.answers (s.heeded events solve) solve =
        (s.answers events solve).filter fun r => !isRefusal r :=
  ⟨fun _ _ h => obey_of_refused h,
    fun events => ⟨after_heeded s events solve, answers_heeded s events solve⟩⟩

/-- The arm after a period, with an infinite gain: the loops have already been stepped when their
output turns out not to be finite. -/
def unboundedGain : Station (Bench Float) BenchHandle Float :=
  Sample.station.after (Sample.setUp ++ [.order (.tick Sample.error Sample.period),
    .order (.setGains (.uniform ⟨1.0 / 0.0, 0.0, 0.0, 0.0⟩))])

theorem refused_output_leaves_no_trace :
    (unboundedGain.obey (.tick Sample.error Sample.period)).1 =
        .error (.refused (.nonFinite .pidOutput)) ∧
      (unboundedGain.obey (.tick Sample.error Sample.period)).2 = unboundedGain ∧
      unboundedGain.sent (.tick Sample.error Sample.period) = [] := by
  have h : (unboundedGain.obey (.tick Sample.error Sample.period)).1 =
      .error (.refused (.nonFinite .pidOutput)) := by decide +kernel
  exact ⟨h, (refused_orders_leave_no_trace unboundedGain TaskSpace.solve).1 _ _ h⟩

end Station

end ArmServo
