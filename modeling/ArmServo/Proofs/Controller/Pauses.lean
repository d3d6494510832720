import ArmServo.Controller.Query
import ArmServo.Proofs.Controller.Orders
import ArmServo.Proofs.Sample

/-!
# Pauses

From the pause of a running controller to the resume that follows, asking for control does nothing,
whatever the error and the period are: the mode is looked at before anything else. So a pause can be
cut out of a run together with its resume and all that lies between them, and neither the station at
the end nor a reply to one of the other calls is different.

Main statement: `pauses_leave_no_trace`.
-/

namespace ArmServo

variable {H J α : Type}

/-! ## pauses in a list of calls -/

namespace Call

/-- The call asks for control, or it is a question. -/
def isIdle : Call H α → Bool
  | .event (.order (.compute _ _)) | .event (.order .write) | .event (.order (.tick _ _))
  | .query _ => true
  | _ => false

def isPause : Call H α → Bool
  | .event (.order .pause) => true
  | _ => false

def isResume : Call H α → Bool
  | .event (.order .resume) => true
  | _ => false

/-- There is a resume, and only idle calls come before it. -/
def leadToResume : List (Call H α) → Bool
  | [] => false
  | x :: rest => x.isResume || (x.isIdle && leadToResume rest)

/-- A pause, the given calls and a resume. -/
def pauseAround (block : List (Call H α)) : List (Call H α) :=
  .event (.order .pause) :: (block ++ [.event (.order .resume)])

theorem leadToResume_append {block : List (Call H α)} (hblock : ∀ x ∈ block, x.isIdle = true)
    (rest : List (Call H α)) :
    leadToResume (block ++ .event (.order .resume) :: rest) = true := by
  induction block with
  | nil => rfl
  | cons x block ih =>
    rw [List.cons_append, leadToResume, hblock x List.mem_cons_self,
      ih fun y hy => hblock y (List.mem_cons_of_mem x hy), Bool.true_and, Bool.or_true]

theorem isResume_of_isIdle {x : Call H α} (h : x.isIdle = true) : x.isResume = false := by
  unfold isIdle at h
  split at h <;> first | rfl | cases h

/-- A call of a pause is the pause itself, the resume, or an idle call after idle calls. -/
theorem pauseAround_cases {block before after : List (Call H α)} {x : Call H α}
    (hblock : ∀ y ∈ block, y.isIdle = true) (h : pauseAround block = before ++ x :: after) :
    (before = [] ∧ x = .event (.order .pause)) ∨
      ∃ idle, before = .event (.order .pause) :: idle ∧ (∀ y ∈ idle, y.isIdle = true) ∧
        (x.isIdle = true ∨ x = .event (.order .resume)) := by
  cases before with
  | nil => exact .inl ⟨rfl, (List.cons.inj h).1.symm⟩
  | cons y idle =>
    obtain ⟨rfl, hrest⟩ := List.cons.inj h
    refine .inr ⟨idle, rfl, ?_⟩
    obtain ⟨as, rfl, has⟩ | ⟨bs, rfl, hbs⟩ := List.append_eq_append_iff.mp hrest
    · cases as with
      | nil => exact ⟨by simpa using hblock, .inr (List.cons.inj has).1.symm⟩
      | cons a as => exact absurd (List.cons.inj has).2 (by simp)
    · have hidle : ∀ y ∈ idle, y.isIdle = true := fun y hy =>
        hblock y (List.mem_append_left bs hy)
      cases bs with
      | nil => exact ⟨hidle, .inr (List.cons.inj hbs).1⟩
      | cons b bs =>
        obtain ⟨rfl, -⟩ := List.cons.inj hbs
        exact ⟨hidle, .inl (hblock x (List.mem_append_right idle List.mem_cons_self))⟩

end Call

/-- The entries of a list whose marks are set. -/
def select {β : Type} : (marks : List Bool) → List β → List β
  | true :: marks, x :: xs => x :: select marks xs
  | false :: marks, _ :: xs => select marks xs
  | _, _ => []

namespace Station

open Call

variable [Scalar α] [JointBus H J α]

/-- The call pauses a running controller, and a resume follows after idle calls. -/
def opensPause (s : Station H J α) (x : Call H α) (rest : List (Call H α)) : Bool :=
  x.isPause && decide (s.controller.state = .running) && leadToResume rest

/-- Marks the calls that remain when every pause of a running controller is cut out with its resume
and the idle calls between them; `cut` tells that such a pause has begun. -/
def remains (solve : TaskSpace.Method α) :
    Station H J α → (cut : Bool) → List (Call H α) → List Bool
  | _, _, [] => []
  | s, true, x :: rest => false :: remains solve s (!x.isResume) rest
  | s, false, x :: rest =>
    if s.opensPause x rest then false :: remains solve s true rest
    else true :: remains solve (s.next x solve) false rest

/-- The calls without the pauses of a running controller. -/
def withoutPauses (s : Station H J α) (calls : List (Call H α)) (solve : TaskSpace.Method α) :
    List (Call H α) :=
  select (s.remains solve false calls) calls

/-! ## what happens in a pause -/

theorem obey_pause {s : Station H J α} {c : Core α J} (hc : s.controller.core = some c)
    (solve : TaskSpace.Method α) :
    s.obey .pause solve = (.ok (), s.withCore { c with mode := .paused }) :=
  obey_of_core hc .pause solve

theorem obey_resume {s : Station H J α} {c : Core α J} (hc : s.controller.core = some c)
    (solve : TaskSpace.Method α) :
    s.obey .resume solve = (.ok (), s.withCore { c with mode := .running }) :=
  obey_of_core hc .resume solve

/-- **An idle order does nothing at a paused controller.** -/
theorem obey_of_isIdle {s : Station H J α} {c : Core α J} (hc : s.controller.core = some c)
    (hm : c.mode = .paused) {o : Order α} (ho : (Call.event (.order o) : Call H α).isIdle = true)
    (solve : TaskSpace.Method α) :
    s.obey o solve = (.ok (), s) ∧ s.sent o solve = [] := by
  have hsilent : c.commands s.controller.writes = [] := by
    unfold Core.commands
    rw [hm]
  have hobeyed : c.obeyed (c.measured s.hardware) o solve = (.ok (), c) := by
    cases o with
    | compute error period | tick error period =>
      unfold Core.obeyed
      rw [hm]
    | write => rfl
    | _ => cases ho
  have hsent : c.outgoing s.controller.writes (c.measured s.hardware) o solve = [] := by
    unfold Core.outgoing
    rw [hobeyed]
    cases o with
    | tick error period => exact hsilent
    | write => exact hsilent
    | _ => rfl
  refine ⟨?_, by rw [sent_of_core hc, hsent]⟩
  rw [obey_of_core hc, hobeyed, hsent]
  show (Except.ok (), s.withCore c) = _
  rw [withCore_self hc]

theorem next_of_isIdle {s : Station H J α} {c : Core α J} (hc : s.controller.core = some c)
    (hm : c.mode = .paused) {x : Call H α} (hx : x.isIdle = true) (solve : TaskSpace.Method α) :
    s.next x solve = s := by
  cases x with
  | query q => rfl
  | event e =>
    cases e with
    | change h => cases hx
    | order o =>
      show (s.obey o solve).2 = s
      rw [(obey_of_isIdle hc hm hx solve).1]

theorem afterCalls_of_isIdle {s : Station H J α} {c : Core α J} (hc : s.controller.core = some c)
    (hm : c.mode = .paused) (solve : TaskSpace.Method α) {block : List (Call H α)}
    (hblock : ∀ x ∈ block, x.isIdle = true) : s.afterCalls block solve = s := by
  induction block with
  | nil => rfl
  | cons x block ih =>
    show (s.next x solve).afterCalls block solve = s
    rw [next_of_isIdle hc hm (hblock x List.mem_cons_self)]
    exact ih fun y hy => hblock y (List.mem_cons_of_mem x hy)

/-- A resume takes a running controller that has been paused back to where it was. -/
theorem obey_resume_of_paused {s : Station H J α} {c : Core α J}
    (hc : s.controller.core = some c) (hm : c.mode = .running) (solve : TaskSpace.Method α) :
    (s.withCore { c with mode := .paused }).obey .resume solve = (.ok (), s) := by
  rw [obey_resume (withCore_core s _)]
  have hmode : ({ c with mode := .running } : Core α J) = c := by
    rw [← hm]
  show (Except.ok (), s.withCore { c with mode := .running }) = _
  rw [hmode, withCore_self hc]

theorem next_of_isPause {s : Station H J α} {c : Core α J} (hc : s.controller.core = some c)
    {x : Call H α} (hx : x.isPause = true) (solve : TaskSpace.Method α) :
    s.next x solve = s.withCore { c with mode := .paused } := by
  unfold isPause at hx
  split at hx
  · exact congrArg Prod.snd (obey_pause hc solve)
  · cases hx

theorem next_of_isResume {s : Station H J α} {c : Core α J} (hc : s.controller.core = some c)
    (hm : c.mode = .running) {x : Call H α} (hx : x.isResume = true)
    (solve : TaskSpace.Method α) :
    (s.withCore { c with mode := .paused }).next x solve = s := by
  unfold isResume at hx
  split at hx
  · exact congrArg Prod.snd (obey_resume_of_paused hc hm solve)
  · cases hx

/-- Every order of a pause is answered, and none sends a command. -/
theorem obey_in_pause {s : Station H J α} {c : Core α J} (hc : s.controller.core = some c)
    (hm : c.mode = .running) (solve : TaskSpace.Method α) {block before after : List (Call H α)}
    {o : Order α} (hblock : ∀ x ∈ block, x.isIdle = true)
    (h : pauseAround block = before ++ .event (.order o) :: after) :
    ((s.afterCalls before solve).obey o solve).1 = .ok () ∧
      (s.afterCalls before solve).sent o solve = [] := by
  obtain ⟨rfl, ho⟩ | ⟨idle, rfl, hidle, ho⟩ := pauseAround_cases hblock h
  · cases ho
    exact ⟨by rw [show s.afterCalls [] solve = s from rfl, obey_pause hc], sent_of_core hc _ solve⟩
  · have hpaused : s.afterCalls (.event (.order .pause) :: idle) solve =
        s.withCore { c with mode := .paused } := by
      show (s.obey .pause solve).2.afterCalls idle solve = _
      rw [obey_pause hc]
      exact afterCalls_of_isIdle (withCore_core s _) rfl solve hidle
    have hc' := withCore_core s { c with mode := .paused }
    rw [hpaused]
    rcases ho with ho | ho
    · obtain ⟨hok, hsent⟩ := obey_of_isIdle hc' rfl ho solve
      exact ⟨by rw [hok], hsent⟩
    · cases ho
      exact ⟨by rw [obey_resume_of_paused hc hm], sent_of_core hc' _ solve⟩

theorem afterCalls_pauseAround {s : Station H J α} {c : Core α J}
    (hc : s.controller.core = some c) (hm : c.mode = .running) (solve : TaskSpace.Method α)
    {block : List (Call H α)} (hblock : ∀ x ∈ block, x.isIdle = true) :
    s.afterCalls (pauseAround block) solve = s := by
  show (s.obey .pause solve).2.afterCalls (block ++ [.event (.order .resume)]) solve = s
  unfold afterCalls
  rw [obey_pause hc, List.foldl_append]
  change (((s.withCore _).afterCalls block solve).obey .resume solve).2 = s
  rw [afterCalls_of_isIdle (withCore_core s _) rfl solve hblock, obey_resume_of_paused hc hm]

/-! ## pauses cut out -/

/-- The marked calls, made at `s`, end where all the calls end that are made at `t`, and their
replies are the marked ones of all replies. -/
def Matches (solve : TaskSpace.Method α) (s t : Station H J α) (marks : List Bool)
    (calls : List (Call H α)) : Prop :=
  s.afterCalls (select marks calls) solve = t.afterCalls calls solve ∧
    s.replies (select marks calls) solve = select marks (t.replies calls solve)

theorem Matches.keep {solve : TaskSpace.Method α} {s : Station H J α} {x : Call H α}
    {marks : List Bool} {rest : List (Call H α)}
    (h : Matches solve (s.next x solve) (s.next x solve) marks rest) :
    Matches solve s s (true :: marks) (x :: rest) :=
  ⟨h.1, congrArg _ h.2⟩

theorem Matches.drop {solve : TaskSpace.Method α} {s t : Station H J α} {x : Call H α}
    {marks : List Bool} {rest : List (Call H α)} (h : Matches solve s (t.next x solve) marks rest) :
    Matches solve s t (false :: marks) (x :: rest) :=
  h

/-- **Pauses can be cut out.** The induction is on the calls, at once for a list of calls and for the
rest of a pause: in a pause the calls that are kept are made at the station before the pause, all
calls at the paused one. -/
theorem matches_remains (solve : TaskSpace.Method α) (calls : List (Call H α))
    (s : Station H J α) :
    Matches solve s s (s.remains solve false calls) calls ∧
      ∀ c : Core α J, s.controller.core = some c → c.mode = .running →
        leadToResume calls = true →
        Matches solve s (s.withCore { c with mode := .paused }) (s.remains solve true calls)
          calls := by
  induction calls generalizing s with
  | nil => exact ⟨⟨rfl, rfl⟩, fun c _ _ hlead => nomatch hlead⟩
  | cons x rest ih =>
    constructor
    · unfold remains
      cases hopen : s.opensPause x rest with
      | false => exact (ih (s.next x solve)).1.keep
      | true =>
        unfold opensPause at hopen
        obtain ⟨⟨hx, hrun⟩, hlead⟩ : (x.isPause = true ∧ s.controller.state = .running) ∧
            leadToResume rest = true := by
          simpa using hopen
        obtain ⟨c, hc, hm⟩ := running_core hrun
        refine Matches.drop ?_
        rw [next_of_isPause hc hx]
        exact (ih s).2 c hc hm hlead
    · intro c hc hm hlead
      unfold leadToResume at hlead
      unfold remains
      refine Matches.drop ?_
      cases hr : x.isResume with
      | true =>
        rw [next_of_isResume hc hm hr]
        exact (ih s).1
      | false =>
        rw [hr, Bool.false_or, Bool.and_eq_true] at hlead
        rw [next_of_isIdle (withCore_core s _) rfl hlead.1]
        exact (ih s).2 c hc hm hlead.2

theorem select_remains_append (solve : TaskSpace.Method α) (s : Station H J α)
    {block : List (Call H α)} (hblock : ∀ x ∈ block, x.isIdle = true) (rest : List (Call H α)) :
    select (s.remains solve true (block ++ .event (.order .resume) :: rest))
        (block ++ .event (.order .resume) :: rest) =
      s.withoutPauses rest solve := by
  induction block with
  | nil => rfl
  | cons x block ih =>
    rw [List.cons_append, remains, isResume_of_isIdle (hblock x List.mem_cons_self)]
    exact ih fun y hy => hblock y (List.mem_cons_of_mem x hy)

theorem withoutPauses_pauseAround {s : Station H J α} (hrun : s.controller.state = .running)
    (solve : TaskSpace.Method α) {block : List (Call H α)}
    (hblock : ∀ x ∈ block, x.isIdle = true) (rest : List (Call H α)) :
    s.withoutPauses (pauseAround block ++ rest) solve = s.withoutPauses rest solve := by
  have hlist : pauseAround block ++ rest =
      .event (.order .pause) :: (block ++ .event (.order .resume) :: rest) := by
    rw [pauseAround, List.cons_append, List.append_assoc, List.singleton_append]
  have hopen : s.opensPause (.event (.order .pause))
      (block ++ .event (.order .resume) :: rest) = true := by
    rw [opensPause, leadToResume_append hblock, decide_eq_true hrun]
    rfl
  rw [hlist, withoutPauses, remains, if_pos hopen]
  exact select_remains_append solve s hblock rest

/-- **Pauses leave no trace.** In a pause of a running controller every order is answered and none
sends a command, and after its resume the station is what it was. Such pauses, cut out of any list of
calls, change neither the station at the end nor the replies to the calls that remain. -/
theorem pauses_leave_no_trace (s : Station H J α) (solve : TaskSpace.Method α) :
    (s.controller.state = .running → ∀ block : List (Call H α),
      (∀ x ∈ block, x.isIdle = true) →
      (∀ before o after, pauseAround block = before ++ .event (.order o) :: after →
        ((s.afterCalls before solve).obey o solve).1 = .ok () ∧
          (s.afterCalls before solve).sent o solve = []) ∧
      s.afterCalls (pauseAround block) solve = s ∧
      ∀ rest, s.withoutPauses (pauseAround block ++ rest) solve = s.withoutPauses rest solve) ∧
    ∀ calls : List (Call H α),
      s.afterCalls (s.withoutPauses calls solve) solve = s.afterCalls calls solve ∧
      s.replies (s.withoutPauses calls solve) solve =
        select (s.remains solve false calls) (s.replies calls solve) := by
  refine ⟨fun hrun block hblock => ?_, fun calls => (matches_remains solve calls s).1⟩
  obtain ⟨c, hc, hm⟩ := running_core hrun
  exact ⟨fun _ _ _ h => obey_in_pause hc hm solve hblock h,
    afterCalls_pauseAround hc hm solve hblock, withoutPauses_pauseAround hrun solve hblock⟩

/-- Calls that a running controller would refuse, but for the question. -/
def nonsense : List (Call (Bench Float) Float) :=
  [.event (.order (.tick (.uniform (0.0 / 0.0)) Sample.period)),
    .event (.order (.compute Sample.error .zero)), .query .tipPose, .event (.order .write)]

theorem pause_hides_nonsense :
    ((Sample.station.after Sample.setUp).obey (.compute Sample.error .zero)).1 =
        .error (.refused (.invalidPeriod .zero)) ∧
      (Sample.station.after Sample.setUp).afterCalls (pauseAround nonsense) TaskSpace.solve =
        Sample.station.after Sample.setUp := by
  have hrun : (Sample.station.after Sample.setUp).controller.state = .running := by decide +kernel
  have hidle : ∀ x ∈ nonsense, x.isIdle = true := by
    simp [nonsense, isIdle]
  have h := (pauses_leave_no_trace (Sample.station.after Sample.setUp) TaskSpace.solve).1 hrun
    nonsense hidle
  exact ⟨by decide +kernel, h.2.1⟩

end Station

end ArmServo
