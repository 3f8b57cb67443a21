import PropositionalCalculus.Proofs.Proof.Checking
import PropositionalCalculus.Proofs.Session.Proving
import PropositionalCalculus.Proofs.Session.Readings

/-!
# What a verifying run accepts and where it stops

The lines of an input decide about a verifying run with any proof system. Its `Course` is how far the lines are
accepted: the first formulas are premises, each further one has a warrant in the premises and the steps before
it, and the line behind them, if there is one, cannot be read or holds a formula without a warrant. There is one
course only (`Course.unique`), the run follows it (`Session.exists_course`), and what the run reports, announces
and leaves of the input can be read off it (`Session.prove_follows_course`).
-/

set_option autoImplicit false

namespace PropositionalCalculus

open Line

/-- How far the lines are accepted when the given number of formulas are premises: the formulas, the proof of
those that are steps, what is announced of them, and the error of the line behind them if there is one. -/
inductive Course (system : ProofSystem) (count : Nat) (lines : List (Except LineError Formula)) :
    List Formula → Proof → List Event → Option RunError → Prop where
  | complete {fs : List Formula} {p : Proof} {events : List Event} :
      lines = fs.map .ok → Checked system (fs.take count) (fs.drop count) p events →
        Course system count lines fs p events none
  | unreadable {fs : List Formula} {p : Proof} {events : List Event} {error : LineError}
      {later : List (Except LineError Formula)} :
      lines = fs.map .ok ++ .error error :: later →
        Checked system (fs.take count) (fs.drop count) p events →
          Course system count lines fs p events (some (.line error))
  | unwarranted {fs : List Formula} {p : Proof} {events : List Event} {f : Formula} {error : ProofError}
      {later : List (Except LineError Formula)} :
      lines = fs.map .ok ++ .ok f :: later → Checked system (fs.take count) (fs.drop count) p events →
        count ≤ fs.length → Unwarranted system (fs.take count) p f error →
          Course system count lines fs p events (some (.proof error))

namespace Course

variable {system : ProofSystem} {count : Nat} {lines : List (Except LineError Formula)}
  {fs gs : List Formula} {p q : Proof} {events others : List Event} {error? other? : Option RunError}

theorem checked (h : Course system count lines fs p events error?) :
    Checked system (fs.take count) (fs.drop count) p events := by
  cases h with
  | complete _ hchecked => exact hchecked
  | unreadable _ hchecked => exact hchecked
  | unwarranted _ hchecked _ _ => exact hchecked

/-- The accepted formulas are what the first lines give. -/
theorem exists_later (h : Course system count lines fs p events error?) :
    ∃ later, lines = fs.map .ok ++ later := by
  cases h with
  | complete hlines _ => exact ⟨[], by rw [hlines, List.append_nil]⟩
  | unreadable hlines _ => exact ⟨_, hlines⟩
  | unwarranted hlines _ _ _ => exact ⟨_, hlines⟩

/-- Behind the accepted formulas there is no formula that could be accepted. -/
theorem not_accepted (h : Course system count lines fs p events error?) {f : Formula} {later : List Formula}
    {rest : List (Except LineError Formula)} (hlines : lines = (fs ++ f :: later).map .ok ++ rest)
    (hmore : Checked system ((fs ++ f :: later).take count) ((fs ++ f :: later).drop count) q others) :
    False := by
  rw [List.map_append, List.append_assoc] at hlines
  cases h with
  | complete hall _ =>
      have hnothing := List.append_cancel_left ((List.append_nil _).trans (hall.symm.trans hlines))
      simp at hnothing
  | unreadable hall _ =>
      have hsame := List.append_cancel_left (hall.symm.trans hlines)
      simp at hsame
  | unwarranted hall hchecked hcount hunwarranted =>
      have hsame := List.append_cancel_left (hall.symm.trans hlines)
      obtain rfl := Except.ok.inj (List.cons.inj hsame).1
      rw [List.take_append_of_le_length hcount, List.drop_append_of_le_length hcount] at hmore
      obtain ⟨before, announced, reason, hbefore, hwarrant, -⟩ := hmore.exists_warrant rfl
      obtain ⟨rfl, -⟩ := hchecked.unique hbefore
      exact hwarrant.not_unwarranted hunwarranted

/-- A course cannot accept fewer formulas than another one. -/
theorem formulas_eq_of_append (h : Course system count lines fs p events error?)
    (h' : Course system count lines gs q others other?) {more : List (Except LineError Formula)}
    (hmore : gs.map .ok = fs.map .ok ++ more) : fs = gs := by
  obtain ⟨first, rest, rfl, hfirst, -⟩ := List.map_eq_append_iff.1 hmore
  obtain rfl := (List.map_inj_right fun _ _ => Except.ok.inj).1 hfirst
  cases rest with
  | nil => rw [List.append_nil]
  | cons f rest =>
      obtain ⟨later, hlines⟩ := h'.exists_later
      exact (h.not_accepted hlines h'.checked).elim

theorem formulas_unique (h : Course system count lines fs p events error?)
    (h' : Course system count lines gs q others other?) : fs = gs := by
  obtain ⟨later, hlines⟩ := h.exists_later
  obtain ⟨later', hlines'⟩ := h'.exists_later
  rcases List.append_eq_append_iff.1 (hlines.symm.trans hlines') with ⟨more, hmore, -⟩ | ⟨more, hmore, -⟩
  · exact h.formulas_eq_of_append h' hmore
  · exact (h'.formulas_eq_of_append h hmore).symm

/-- What is wrong with the first of the lines, when they stand behind the members of a proof. -/
def firstError (system : ProofSystem) (premises : List Formula) (p : Proof) :
    List (Except LineError Formula) → Option RunError
  | [] => none
  | .error error :: _ => some (.line error)
  | .ok f :: _ =>
      match p.step? system premises f with
      | .ok _ => none
      | .error error => some (.proof error)

/-- The line behind the accepted formulas decides about the error. -/
theorem error_eq (h : Course system count lines fs p events error?)
    {later : List (Except LineError Formula)} (hlines : lines = fs.map .ok ++ later) :
    error? = firstError system (fs.take count) p later := by
  cases h with
  | complete hall _ =>
      obtain rfl := List.append_cancel_left ((List.append_nil _).trans (hall.symm.trans hlines))
      rfl
  | unreadable hall _ =>
      obtain rfl := List.append_cancel_left (hall.symm.trans hlines)
      rfl
  | unwarranted hall _ _ hunwarranted =>
      obtain rfl := List.append_cancel_left (hall.symm.trans hlines)
      rw [firstError, hunwarranted.step?_eq]

/-- **The lines have one course.** -/
theorem unique (h : Course system count lines fs p events error?)
    (h' : Course system count lines gs q others other?) :
    fs = gs ∧ p = q ∧ events = others ∧ error? = other? := by
  obtain rfl := h.formulas_unique h'
  obtain ⟨rfl, rfl⟩ := h.checked.unique h'.checked
  obtain ⟨later, hlines⟩ := h.exists_later
  exact ⟨rfl, rfl, rfl, (h.error_eq hlines).trans (h'.error_eq hlines).symm⟩

end Course

@[simp] theorem Tally.lines_countStep (t : Tally) (reason : Justification) :
    (t.countStep reason).lines = t.lines := by
  cases reason <;> rfl

@[simp] theorem Tally.failures_countStep (t : Tally) (reason : Justification) :
    (t.countStep reason).failures = t.failures := by
  cases reason <;> rfl

namespace Proving

variable {system : ProofSystem} {state : State} {f : Formula}

/-- A warranted step is announced, counted and taken. -/
theorem takeStep_of_warrant {reason : Justification}
    (h : Warrant system state.premises state.proof f reason) :
    takeStep system .verify state f =
      ([.step (state.proof.length + 1) f reason],
        .next ⟨state.tally.countStep reason, state.premises, state.proof.withStep f reason⟩) := by
  have hpush : state.proof.push? f reason.witnesses = .ok (state.proof.withStep f reason) :=
    Proof.push?_eq_ok_iff.2 ⟨h.witnesses_le, rfl⟩
  rw [takeStep, h.justify?_eq]
  simp only [hpush, Proof.length_withStep]

/-- An unwarranted step ends the run. -/
theorem takeStep_of_unwarranted (mode : ProofMode) {error : ProofError}
    (h : Unwarranted system state.premises state.proof f error) :
    takeStep system mode state f = ([], .stop (state.fail (.proof error))) := by
  rcases takeStep_cases system mode state f with ⟨p, events, tally, hstep, -⟩ | ⟨error', hstep, htake⟩
  · exact nomatch h.step?_eq.symm.trans hstep
  · obtain rfl := Except.error.inj (h.step?_eq.symm.trans hstep)
    exact htake

/-- The state of a run that has accepted these formulas, with these announcements. -/
structure Reached (system : ProofSystem) (count : Nat) (fs : List Formula) (announced : List Event)
    (state : State) : Prop where
  premises : state.premises = fs.take count
  lines : state.tally.lines = fs.length
  unfailed : state.tally.failures = 0
  checked : Checked system (fs.take count) (fs.drop count) state.proof announced

namespace Reached

variable {count : Nat} {fs : List Formula} {announced : List Event}

theorem start (system : ProofSystem) (count : Nat) : Reached system count [] [] .start where
  premises := List.take_nil.symm
  lines := rfl
  unfailed := rfl
  checked := by
    rw [List.drop_nil]
    exact .nothing

theorem length_premises (h : Reached system count fs announced state) :
    state.premises.length = min count fs.length := by
  rw [h.premises, List.length_take]

/-- As long as premises are missing, the next formula is one. -/
theorem premise (h : Reached system count fs announced state) (hmissing : fs.length < count) (f : Formula) :
    Reached system count (fs ++ [f]) announced
      ⟨state.tally.countLine.countPremise, state.premises ++ [f], state.proof⟩ where
  premises := by
    have hall : (fs ++ [f]).length ≤ count := by
      rw [List.length_append, List.length_singleton]
      exact hmissing
    rw [h.premises, List.take_of_length_le (Nat.le_of_lt hmissing), List.take_of_length_le hall]
  lines := by
    rw [List.length_append, ← h.lines]
    rfl
  unfailed := h.unfailed
  checked := by
    -- There is no step yet, so other premises make no difference.
    have hnone := h.checked
    rw [List.drop_of_length_le (Nat.le_of_lt hmissing)] at hnone
    obtain ⟨hproof, rfl⟩ := hnone.unique .nothing
    rw [hproof, List.drop_of_length_le]
    · exact .nothing
    · rw [List.length_append, List.length_singleton]
      exact hmissing

/-- With all premises there, the next formula is a step. -/
theorem step (h : Reached system count fs announced state) (hall : count ≤ fs.length) {f : Formula}
    {reason : Justification} (hwarrant : Warrant system state.premises state.proof f reason) :
    Reached system count (fs ++ [f]) (announced ++ [.step (state.proof.length + 1) f reason])
      ⟨state.tally.countLine.countStep reason, state.premises, state.proof.withStep f reason⟩ where
  premises := by rw [List.take_append_of_le_length hall, h.premises]
  lines := by
    rw [Tally.lines_countStep, List.length_append, ← h.lines]
    rfl
  unfailed := by
    rw [Tally.failures_countStep]
    exact h.unfailed
  checked := by
    rw [List.take_append_of_le_length hall, List.drop_append_of_le_length hall]
    rw [h.premises] at hwarrant
    exact .step h.checked hwarrant

end Reached

end Proving

namespace Session

variable {s : Session}

/-- **What one line does to a run**: the formula of the line is accepted and the run goes on, or the run stops, and
its course ends there. -/
theorem onLine_of_reached (hs : s.settings.proofMode = .verify) {fs : List Formula} {announced : List Event}
    {state : Proving.State} (h : Proving.Reached s.system s.settings.premises fs announced state)
    (line : Except LineError Formula) :
    (∃ f events state', line = .ok f ∧ s.proofProcedure.onLine state line = (events, .next state') ∧
        Proving.Reached s.system s.settings.premises (fs ++ [f]) (announced ++ events) state') ∨
      ∃ tally error,
        s.proofProcedure.onLine state line =
          ([], .stop (tally, .error ⟨fs.length + 1, state.proof.length + 1, error⟩)) ∧
        ∀ later, Course s.system s.settings.premises (fs.map .ok ++ line :: later) fs state.proof announced
          (some error) := by
  -- The line is counted before anything else.
  have hlines : state.tally.countLine.lines = fs.length + 1 := congrArg (· + 1) h.lines
  cases line with
  | error error =>
      refine Or.inr ⟨state.tally.countLine.countFailure, .line error, ?_, fun later => .unreadable rfl h.checked⟩
      rw [← hlines]
      rfl
  | ok f =>
      by_cases hmissing : fs.length < s.settings.premises
      · have hfew : state.premises.length < s.settings.premises := by
          rw [h.length_premises]
          omega
        refine Or.inl ⟨f, [], _, rfl, if_pos hfew, ?_⟩
        rw [List.append_nil]
        exact h.premise hmissing f
      · have hall := Nat.le_of_not_lt hmissing
        have henough : ¬ state.premises.length < s.settings.premises := by
          rw [h.length_premises]
          omega
        have hline : s.proofProcedure.onLine state (.ok f) =
            Proving.takeStep s.system .verify ⟨state.tally.countLine, state.premises, state.proof⟩ f := by
          rw [← hs]
          exact if_neg henough
        rw [hline]
        rcases warrant_or_unwarranted s.system state.premises state.proof f with
          ⟨reason, hwarrant⟩ | ⟨error, hunwarranted⟩
        · exact Or.inl ⟨f, _, _, rfl, Proving.takeStep_of_warrant hwarrant, h.step hall hwarrant⟩
        · refine Or.inr ⟨state.tally.countLine.countFailure, .proof error, ?_, ?_⟩
          · rw [← hlines]
            exact Proving.takeStep_of_unwarranted .verify hunwarranted
          · intro later
            rw [h.premises] at hunwarranted
            exact .unwarranted rfl h.checked hall hunwarranted

/-- A run that goes on has accepted the formula of the line. -/
theorem reached_of_next (hs : s.settings.proofMode = .verify) {fs : List Formula} {announced events : List Event}
    {state state' : Proving.State} {line : Except LineError Formula}
    (h : Proving.Reached s.system s.settings.premises fs announced state)
    (hturn : s.proofProcedure.onLine state line = (events, .next state')) :
    ∃ f, line = .ok f ∧
      Proving.Reached s.system s.settings.premises (fs ++ [f]) (announced ++ events) state' := by
  rcases onLine_of_reached hs h line with ⟨f, events', state₁, rfl, hnext, hreached⟩ | ⟨tally, error, hstop, -⟩
  · obtain ⟨rfl, hsame⟩ := Prod.mk.inj (hnext.symm.trans hturn)
    obtain rfl := Turn.next.inj hsame
    exact ⟨f, rfl, hreached⟩
  · exact (Turn.not_next_and_stop hturn hstop).elim

/-- A run that stops has failed on the line, in silence. -/
theorem course_of_stop (hs : s.settings.proofMode = .verify) {fs : List Formula} {announced events : List Event}
    {state : Proving.State} {line : Except LineError Formula} {result : Proving.Result}
    (h : Proving.Reached s.system s.settings.premises fs announced state)
    (hturn : s.proofProcedure.onLine state line = (events, .stop result)) :
    events = [] ∧ ∃ error, result.2 = .error ⟨fs.length + 1, state.proof.length + 1, error⟩ ∧
      ∀ later, Course s.system s.settings.premises (fs.map .ok ++ line :: later) fs state.proof announced
        (some error) := by
  rcases onLine_of_reached hs h line with ⟨f, events', state', -, hnext, -⟩ | ⟨tally, error, hstop, hcourse⟩
  · exact (Turn.not_next_and_stop hnext hturn).elim
  · obtain ⟨rfl, hsame⟩ := Prod.mk.inj (hstop.symm.trans hturn)
    obtain rfl := Turn.stop.inj hsame
    exact ⟨rfl, error, rfl, hcourse⟩

/-- **What a whole run has accepted when it goes on**: all lines so far. -/
theorem exists_reached (hs : s.settings.proofMode = .verify) {source₀ source : Source}
    {lines : List (Except LineError Formula)} {announced : List Event} {state : Proving.State}
    (h : s.proofProcedure.Reaches s.settings.reading .start source₀ lines announced state source) :
    ∃ fs, lines = fs.map .ok ∧
      Proving.Reached s.system s.settings.premises fs announced state := by
  induction h with
  | start => exact ⟨[], rfl, .start s.system s.settings.premises⟩
  | @next lines announced events state state' source line _ _ hturn ih =>
      obtain ⟨fs, rfl, hreached⟩ := ih
      obtain ⟨f, rfl, hreached'⟩ := reached_of_next hs hreached hturn
      exact ⟨fs ++ [f], by rw [List.map_append]; rfl, hreached'⟩

/-- The report on a course: the proof, or the place of the first line that is not accepted. -/
def verdict (fs : List Formula) (p : Proof) : Option RunError → Except ProofFailure ProofReport
  | none => .ok (.verified p)
  | some error => .error ⟨fs.length + 1, p.length + 1, error⟩

/-- **A run follows the course of its lines.** -/
theorem exists_course (hs : s.settings.proofMode = .verify) {bytes : List UInt8}
    {ending : Ending Proving.Result}
    (h : s.proofProcedure.Ends s.settings.reading .start (.ofBytes bytes) ending) :
    ∃ fs p error?, Course s.system s.settings.premises (s.settings.reading.readings bytes) fs p
        ending.events error? ∧
      ending.result.2 = verdict fs p error? ∧ ending.source = .ofBytes (behind (fs.length + 1) bytes) := by
  obtain ⟨lines, announced, state, source, hreaches, hlast⟩ := h.exists_reaches
  obtain ⟨fs, rfl, hreached⟩ := exists_reached hs hreaches
  obtain ⟨rfl, hreadings⟩ := hreaches.readings_eq
  rw [List.length_map] at hreadings hlast
  have hrest : (s.settings.reading.readLine (.ofBytes (behind fs.length bytes))).2 =
      .ofBytes (behind (fs.length + 1) bytes) := by
    rw [Notation.readLine_ofBytes]
    rfl
  cases hlast with
  | finished hline =>
      rw [Notation.readings_of_none hline, List.append_nil] at hreadings
      refine ⟨fs, state.proof, none, .complete hreadings hreached.checked, ?_, hrest⟩
      change (Proving.finish s.settings.proofMode state).2 = _
      rw [hs]
      rfl
  | @stopped line events result hline hturn =>
      rw [Notation.readings_of_some hline] at hreadings
      obtain ⟨rfl, error, hresult, hcourse⟩ := course_of_stop hs hreached hturn
      rw [hreadings, List.append_nil]
      exact ⟨fs, state.proof, some error, hcourse _, hresult, hrest⟩

/-- **What a verifying run accepts, and where it stops.** It reports a proof when the lines are accepted to the
last, namely the proof of the steps among them, and otherwise where and why the first line is not. Each accepted
step is announced, in order and once, and the run takes the accepted lines and the one behind them. -/
theorem prove_follows_course (s : Session) (bytes : List UInt8) :
    ∃ run, (s.withMode .verify).prove (.ofBytes bytes) = some run ∧
      (∀ report, run.result = .ok report ↔
        ∃ fs p events,
          Course s.system s.settings.premises (s.settings.reading.readings bytes) fs p events none ∧
            report = .verified p) ∧
      (∀ failure, run.result = .error failure ↔
        ∃ fs p events error,
          Course s.system s.settings.premises (s.settings.reading.readings bytes) fs p events (some error) ∧
            failure = ⟨fs.length + 1, p.length + 1, error⟩) ∧
      ∀ fs p events error?,
        Course s.system s.settings.premises (s.settings.reading.readings bytes) fs p events error? →
          run.events = events.filter s.audience.hears ∧
            run.source = .ofBytes (behind (fs.length + 1) bytes) := by
  obtain ⟨ending, hends, hprove⟩ := exists_prove (s.withMode .verify) (.ofBytes bytes)
  obtain ⟨fs, p, error?, hcourse, hresult, hsource⟩ := exists_course rfl hends
  refine ⟨_, hprove, ?_, ?_, ?_⟩
  · intro report
    change ending.result.2 = _ ↔ _
    rw [hresult]
    constructor
    · intro hreport
      cases error? with
      | none => exact ⟨fs, p, _, hcourse, (Except.ok.inj hreport).symm⟩
      | some error => exact nomatch hreport
    · rintro ⟨gs, q, events, hother, rfl⟩
      obtain ⟨-, rfl, -, rfl⟩ := hcourse.unique hother
      rfl
  · intro failure
    change ending.result.2 = _ ↔ _
    rw [hresult]
    constructor
    · intro hfailure
      cases error? with
      | none => exact nomatch hfailure
      | some error => exact ⟨fs, p, _, error, hcourse, (Except.error.inj hfailure).symm⟩
    · rintro ⟨gs, q, events, error, hother, rfl⟩
      obtain ⟨rfl, rfl, -, rfl⟩ := hcourse.unique hother
      rfl
  · intro gs q events other? hother
    obtain ⟨rfl, -, rfl, -⟩ := hcourse.unique hother
    exact ⟨rfl, hsource⟩

end Session

end PropositionalCalculus
