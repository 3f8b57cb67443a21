import PropositionalCalculus.Session.Survey
import PropositionalCalculus.Proofs.Session.Modes

/-!
# What the counts of a run account for

Every run begins to count anew, and when it ends its counts account for every line that it has read. A survey
announces one event over each line, and the line was accepted or is a failure (`Session.SurveyAccount`). In a proof
run each line is a premise, a step of one of three kinds, or the one on which the run has failed
(`Session.ProofAccount`). Nothing is asked of the session: whatever counts and settings it has from before, the
account of its next run is the same (`Session.counts_account_for_lines`).
-/

set_option autoImplicit false

namespace PropositionalCalculus

/-! ## Events over lines -/

namespace Event

/-- The line was not accepted. -/
def isFailure : Event → Bool
  | rejected _ _ => true
  | classified _ none => true
  | _ => false

/-- The line gave a formula that was handed on. -/
def isFormula : Event → Bool
  | formula _ => true
  | _ => false

/-- The line gave an axiom. -/
def isAxiom : Event → Bool
  | classified _ (some _) => true
  | _ => false

end Event

/-- The counts with one more line, over which the event was announced. -/
def Tally.countAnnounced (t : Tally) (event : Event) : Tally :=
  { t with
    lines := t.lines + 1
    axioms := t.axioms + event.isAxiom.toNat
    failures := t.failures + event.isFailure.toNat }

/-- The report with one more line, over which the event was announced. -/
def Report.withAnnounced (report : Report) (event : Event) : Report :=
  if event.isFailure then .failure else report

/-! ## Surveys -/

/-- What an inspection finds is what it announces, and it announces that the formula is accepted or a failure. -/
structure Candid (accepted : Event → Bool) (inspect : Formula → Tally → Finding) : Prop where
  refuses (line : Nat) (error : LineError) : accepted (.rejected line error) = false
  sorted (f : Formula) (t : Tally) : accepted (inspect f t).event = !(inspect f t).event.isFailure
  accepts (f : Formula) (t : Tally) : (inspect f t).accepted = !(inspect f t).event.isFailure
  counts (f : Formula) (t : Tally) :
    (inspect f t).tally = { t with axioms := t.axioms + (inspect f t).event.isAxiom.toNat }
  /-- Only lines that give no formula are rejected. -/
  formula (f : Formula) (t : Tally) (line : Nat) (error : LineError) :
    (inspect f t).event ≠ .rejected line error

theorem candid_inspectFormula : Candid Event.isFormula inspectFormula where
  refuses _ _ := rfl
  sorted _ _ := rfl
  accepts _ _ := rfl
  counts _ _ := rfl
  formula _ _ _ _ := nofun

theorem candid_inspectAxiom (system : ProofSystem) : Candid Event.isAxiom (inspectAxiom system) where
  refuses _ _ := rfl
  sorted f t := by rw [inspectAxiom]; split <;> rfl
  accepts f t := by rw [inspectAxiom]; split <;> rfl
  counts f t := by rw [inspectAxiom]; split <;> rfl
  formula f t line error := by rw [inspectAxiom]; split <;> exact nofun

/-- The event may be announced over the line with the given number. -/
structure Event.FitsLine (accepted : Event → Bool) (number : Nat) (event : Event) : Prop where
  sorted : accepted event = !event.isFailure
  numbered (line : Nat) (error : LineError) : event = .rejected line error → line = number

section Survey

variable {strict : Bool} {accepted : Event → Bool} {inspect : Formula → Tally → Finding}

/-- An accepted formula is counted as its event is. -/
theorem Candid.tally_of_accepted (h : Candid accepted inspect) {f : Formula} {t : Tally}
    (hfailure : (inspect f t.countLine).event.isFailure = false) :
    (inspect f t.countLine).tally = t.countAnnounced (inspect f t.countLine).event := by
  rw [h.counts, Tally.countAnnounced, hfailure]
  rfl

/-- A formula that is found wanting is counted as its event is, with the failure. -/
theorem Candid.tally_of_refused (h : Candid accepted inspect) {f : Formula} {t : Tally}
    (hfailure : (inspect f t.countLine).event.isFailure = true) :
    (inspect f t.countLine).tally.countFailure = t.countAnnounced (inspect f t.countLine).event := by
  rw [h.counts, Tally.countAnnounced, hfailure]
  rfl

/-- **What one line does to a survey**: one event is announced and counted. The survey stops there if it is strict and
the event is a failure. -/
theorem survey_onLine (strict : Bool) (h : Candid accepted inspect) (state : Tally × Report)
    (line : Except LineError Formula) :
    ∃ event, event.FitsLine accepted (state.1.lines + 1) ∧
      (survey strict inspect).onLine state line =
        ([event],
          if strict && event.isFailure then
            .stop (state.1.countAnnounced event, state.2.withAnnounced event)
          else .next (state.1.countAnnounced event, state.2.withAnnounced event)) := by
  cases line with
  | error error =>
      refine ⟨.rejected (state.1.lines + 1) error, ⟨h.refuses _ _, ?_⟩, ?_⟩
      · rintro line _ ⟨⟩
        rfl
      · cases strict <;> rfl
  | ok f =>
      refine ⟨(inspect f state.1.countLine).event, ⟨h.sorted _ _, ?_⟩, ?_⟩
      · intro line error hrejected
        exact absurd hrejected (h.formula _ _ _ _)
      · cases hfailure : (inspect f state.1.countLine).event.isFailure with
        | false =>
            simp only [survey, h.accepts, hfailure, h.tally_of_accepted hfailure, Report.withAnnounced,
              Bool.and_false]
            rfl
        | true =>
            simp only [survey, h.accepts, hfailure, Survey.afterFailure, h.tally_of_refused hfailure,
              Report.withAnnounced, Bool.and_true]
            rfl

/-- The counts and the report of a survey that has announced these events. -/
structure Surveyed (accepted : Event → Bool) (announced : List Event) (state : Tally × Report) : Prop where
  sorted : ∀ event ∈ announced, accepted event = !event.isFailure
  numbered : ∀ i line error, announced[i]? = some (.rejected line error) → line = i + 1
  lines : state.1.lines = announced.length
  axioms : state.1.axioms = announced.countP Event.isAxiom
  failures : state.1.failures = announced.countP Event.isFailure
  premises : state.1.premises = 0
  restatements : state.1.restatements = 0
  deductions : state.1.deductions = 0
  report : state.2 = .failure ↔ 0 < state.1.failures

namespace Surveyed

variable {announced : List Event} {state : Tally × Report}

theorem start (accepted : Event → Bool) : Surveyed accepted [] ({}, .success) where
  sorted := nofun
  numbered := nofun
  lines := rfl
  axioms := rfl
  failures := rfl
  premises := rfl
  restatements := rfl
  deductions := rfl
  report := ⟨nofun, nofun⟩

theorem snoc (h : Surveyed accepted announced state) {event : Event}
    (hevent : event.FitsLine accepted (state.1.lines + 1)) :
    Surveyed accepted (announced ++ [event]) (state.1.countAnnounced event, state.2.withAnnounced event) where
  sorted e he := by
    rcases List.mem_append.1 he with hbefore | hlast
    · exact h.sorted e hbefore
    · rw [List.mem_singleton.1 hlast]
      exact hevent.sorted
  numbered i line error hi := by
    rw [List.getElem?_append] at hi
    split at hi
    · exact h.numbered i line error hi
    · rename_i hlt
      -- The number counts the lines before this one, and there is an event for each of them.
      obtain ⟨hzero, hlast⟩ := List.getElem?_eq_some_iff.1 hi
      rw [List.length_singleton] at hzero
      have hline := hevent.numbered line error (by simpa using hlast)
      have hlines := h.lines
      omega
  lines := by rw [List.length_append, ← h.lines]; rfl
  axioms := by rw [List.countP_append, ← h.axioms]; cases ha : event.isAxiom <;> simp [Tally.countAnnounced, ha]
  failures := by
    rw [List.countP_append, ← h.failures]
    cases hf : event.isFailure <;> simp [Tally.countAnnounced, hf]
  premises := h.premises
  restatements := h.restatements
  deductions := h.deductions
  report := by
    cases hf : event.isFailure with
    | false => simpa [Report.withAnnounced, Tally.countAnnounced, hf] using h.report
    | true => simp [Report.withAnnounced, Tally.countAnnounced, hf]

/-- Every line was accepted or is a failure. -/
theorem lines_eq (h : Surveyed accepted announced state) :
    state.1.lines = announced.countP accepted + state.1.failures := by
  have hothers : announced.countP Event.isFailure = announced.countP (fun event => ¬ accepted event) := by
    apply List.countP_congr
    intro event hevent
    rw [h.sorted event hevent]
    cases event.isFailure <;> simp
  rw [h.lines, h.failures, hothers]
  exact List.length_eq_countP_add_countP accepted

end Surveyed

/-- **What a whole survey has counted when it goes on.** A strict one has met no failure. -/
theorem surveyed_of_reaches (hinspect : Candid accepted inspect) {n : Notation} {source₀ source : Source}
    {lines : List (Except LineError Formula)} {announced : List Event} {state : Tally × Report}
    (h : (survey strict inspect).Reaches n ({}, .success) source₀ lines announced state source) :
    Surveyed accepted announced state ∧ (strict = true → state.1.failures = 0) := by
  induction h with
  | start => exact ⟨.start accepted, fun _ => rfl⟩
  | @next lines announced events state state' source line _ hline hturn ih =>
      obtain ⟨hsurveyed, hunfailed⟩ := ih
      obtain ⟨event, hfits, honLine⟩ := survey_onLine strict hinspect state line
      rw [honLine] at hturn
      obtain ⟨rfl, hstate⟩ := Prod.mk.inj hturn
      split at hstate
      · exact nomatch hstate
      · rename_i hgoes
        obtain rfl := Turn.next.inj hstate
        refine ⟨hsurveyed.snoc hfits, ?_⟩
        intro hstrict
        rw [hstrict, Bool.true_and, Bool.not_eq_true] at hgoes
        simp [Tally.countAnnounced, hunfailed hstrict, hgoes]

/-- **What a survey has counted when it ends.** A strict one stops at its first failure. -/
theorem surveyed_of_ends (hinspect : Candid accepted inspect) {n : Notation} {source : Source}
    {ending : Ending (Tally × Report)}
    (h : (survey strict inspect).Ends n ({}, .success) source ending) :
    Surveyed accepted ending.events ending.result ∧ (strict = true → ending.result.1.failures ≤ 1) := by
  obtain ⟨lines, announced, state, last, hreaches, hlast⟩ := h.exists_reaches
  obtain ⟨hsurveyed, hunfailed⟩ := surveyed_of_reaches hinspect hreaches
  cases hlast with
  | finished _ =>
      refine ⟨hsurveyed, ?_⟩
      intro hstrict
      change state.1.failures ≤ 1
      rw [hunfailed hstrict]
      exact Nat.zero_le 1
  | @stopped line events result _ hturn =>
      obtain ⟨event, hfits, honLine⟩ := survey_onLine strict hinspect state line
      rw [honLine] at hturn
      obtain ⟨rfl, hresult⟩ := Prod.mk.inj hturn
      split at hresult
      · obtain rfl := Turn.stop.inj hresult
        refine ⟨hsurveyed.snoc hfits, ?_⟩
        intro hstrict
        have hone : event.isFailure.toNat ≤ 1 := Bool.toNat_le _
        simpa [Tally.countAnnounced, hunfailed hstrict] using hone
      · exact nomatch hresult

end Survey

/-! ## Proof runs -/

namespace Tally

/-- The steps of all three kinds. -/
def steps (t : Tally) : Nat :=
  t.axioms + t.restatements + t.deductions

@[simp] theorem steps_countStep (t : Tally) (reason : Justification) :
    (t.countStep reason).steps = t.steps + 1 := by
  cases reason <;> simp only [countStep, countAxiom, countRestatement, countDeduction, steps] <;> omega

@[simp] theorem premises_countStep (t : Tally) (reason : Justification) :
    (t.countStep reason).premises = t.premises := by
  cases reason <;> rfl

end Tally

namespace Proving

/-- The counts of a run that goes on are the numbers of its premises and of its steps, and there are no steps before
all premises are there. -/
structure Counted (count : Nat) (state : State) : Prop where
  premises : state.tally.premises = state.premises.length
  premises_le : state.premises.length ≤ count
  premises_eq : 0 < state.proof.length → state.premises.length = count
  steps : state.tally.steps = state.proof.length
  lines : state.tally.lines = state.tally.premises + state.tally.steps
  unfailed : state.tally.failures = 0

namespace Counted

variable {count : Nat} {state : State}

theorem start (count : Nat) : Counted count .start where
  premises := rfl
  premises_le := Nat.zero_le count
  premises_eq h := absurd h (Nat.lt_irrefl 0)
  steps := rfl
  lines := rfl
  unfailed := rfl

/-- One more premise. -/
theorem premise (h : Counted count state) (hmissing : state.premises.length < count) (f : Formula) :
    Counted count ⟨state.tally.countLine.countPremise, state.premises ++ [f], state.proof⟩ where
  premises := by
    rw [List.length_append, ← h.premises]
    rfl
  premises_le := by
    rw [List.length_append]
    exact hmissing
  premises_eq hsteps := absurd (h.premises_eq hsteps) (Nat.ne_of_lt hmissing)
  steps := h.steps
  lines := by
    have hlines := h.lines
    simp only [Tally.countPremise, Tally.countLine, Tally.steps] at hlines ⊢
    omega
  unfailed := h.unfailed

/-- One more step. -/
theorem step (h : Counted count state) (hall : ¬ state.premises.length < count) (f : Formula)
    (reason : Justification) :
    Counted count ⟨state.tally.countLine.countStep reason, state.premises, state.proof.withStep f reason⟩ where
  premises := by
    rw [Tally.premises_countStep]
    exact h.premises
  premises_le := h.premises_le
  premises_eq _ := Nat.le_antisymm h.premises_le (Nat.le_of_not_lt hall)
  steps := by
    rw [Tally.steps_countStep, Proof.length_withStep, ← h.steps]
    rfl
  lines := by
    rw [Tally.lines_countStep, Tally.premises_countStep, Tally.steps_countStep, ← Nat.add_assoc]
    exact congrArg (· + 1) h.lines
  unfailed := by
    rw [Tally.failures_countStep]
    exact h.unfailed

end Counted

/-- In both modes a warranted step is counted and taken. -/
theorem exists_takeStep_of_warrant {system : ProofSystem} (mode : ProofMode) (state : State) {f : Formula}
    {reason : Justification} (h : Warrant system state.premises state.proof f reason) :
    ∃ events, takeStep system mode state f =
      (events, .next ⟨state.tally.countStep reason, state.premises, state.proof.withStep f reason⟩) := by
  cases mode with
  | verify => exact ⟨_, takeStep_of_warrant h⟩
  | optimize => exact ⟨[], by rw [takeStep_optimize, takeStep_of_warrant h]⟩

/-- **How a run ends whose lines are all accepted**: with a report on a proof of as many members, or with the one
failure that is on no line. -/
theorem finish_cases (mode : ProofMode) (state : State) :
    (∃ report, finish mode state = (state.tally, .ok report) ∧ report.proof.length = state.proof.length) ∨
      finish mode state = (state.tally.countFailure, .error ⟨0, 0, .proof .alreadyOptimal⟩) := by
  cases mode with
  | verify => exact Or.inl ⟨.verified state.proof, rfl, rfl⟩
  | optimize =>
      rw [finish]
      rcases hoptimize : state.proof.optimize with ⟨error | count, marked⟩
      · obtain rfl := Proof.eq_alreadyOptimal (congrArg Prod.fst hoptimize)
        exact Or.inr rfl
      · refine Or.inl ⟨.optimized marked, rfl, ?_⟩
        have hreport : ProofMode.optimize.report state.proof = .ok (.optimized marked) := by
          rw [ProofMode.report, hoptimize]
        have hformulas := ProofMode.formulas_of_report hreport
        rw [← Proof.length_formulas, hformulas, Proof.length_formulas]

end Proving

namespace Session

variable {s : Session}

/-- Why a proof run stops at a line: it gives no formula, or one that is not warranted as the next step. -/
inductive RefusedWith (system : ProofSystem) (state : Proving.State) :
    Except LineError Formula → RunError → Prop where
  | unreadable (error : LineError) : RefusedWith system state (.error error) (.line error)
  | unwarranted {f : Formula} {error : ProofError} :
      Unwarranted system state.premises state.proof f error → RefusedWith system state (.ok f) (.proof error)

/-- **What one line does to a proof run**: it is one more premise as long as premises are missing, one more warranted
step after that, or the run stops there. -/
theorem onLine_turns (s : Session) (state : Proving.State) (line : Except LineError Formula) :
    (∃ f, line = .ok f ∧ state.premises.length < s.settings.premises ∧
        s.proofProcedure.onLine state line =
          ([], .next ⟨state.tally.countLine.countPremise, state.premises ++ [f], state.proof⟩)) ∨
      (∃ f reason events, line = .ok f ∧ ¬ state.premises.length < s.settings.premises ∧
        Warrant s.system state.premises state.proof f reason ∧
          s.proofProcedure.onLine state line =
            (events, .next ⟨state.tally.countLine.countStep reason, state.premises,
              state.proof.withStep f reason⟩)) ∨
      ∃ error, RefusedWith s.system state line error ∧
        s.proofProcedure.onLine state line =
          ([], .stop (state.tally.countLine.countFailure,
            .error ⟨state.tally.lines + 1, state.proof.length + 1, error⟩)) := by
  cases line with
  | error error => exact Or.inr (Or.inr ⟨.line error, .unreadable error, rfl⟩)
  | ok f =>
      by_cases hmissing : state.premises.length < s.settings.premises
      · exact Or.inl ⟨f, rfl, hmissing, if_pos hmissing⟩
      · have hline : s.proofProcedure.onLine state (.ok f) = Proving.takeStep s.system s.settings.proofMode
            ⟨state.tally.countLine, state.premises, state.proof⟩ f :=
          if_neg hmissing
        rw [hline]
        rcases warrant_or_unwarranted s.system state.premises state.proof f with
          ⟨reason, hwarrant⟩ | ⟨error, hunwarranted⟩
        · obtain ⟨events, hstep⟩ := Proving.exists_takeStep_of_warrant s.settings.proofMode
            ⟨state.tally.countLine, state.premises, state.proof⟩ hwarrant
          exact Or.inr (Or.inl ⟨f, reason, events, rfl, hmissing, hwarrant, hstep⟩)
        · exact Or.inr (Or.inr ⟨.proof error, .unwarranted hunwarranted,
            Proving.takeStep_of_unwarranted s.settings.proofMode hunwarranted⟩)

/-- A line is counted with the premise or the step that it is, or with the only failure of the run. -/
theorem onLine_of_counted {state : Proving.State} (h : Proving.Counted s.settings.premises state)
    (line : Except LineError Formula) :
    (∃ events state', s.proofProcedure.onLine state line = (events, .next state') ∧
        Proving.Counted s.settings.premises state') ∨
      ∃ error, s.proofProcedure.onLine state line =
        ([], .stop (state.tally.countLine.countFailure,
          .error ⟨state.tally.lines + 1, state.proof.length + 1, error⟩)) := by
  rcases s.onLine_turns state line with
    ⟨f, -, hmissing, hturn⟩ | ⟨f, reason, events, -, hall, -, hturn⟩ | ⟨error, -, hstop⟩
  · exact Or.inl ⟨[], _, hturn, h.premise hmissing f⟩
  · exact Or.inl ⟨events, _, hturn, h.step hall f reason⟩
  · exact Or.inr ⟨error, hstop⟩

/-- The counts of a whole proof run that goes on. -/
theorem counted_of_reaches {source₀ source : Source} {lines : List (Except LineError Formula)}
    {announced : List Event} {state : Proving.State}
    (h : s.proofProcedure.Reaches s.settings.reading .start source₀ lines announced state source) :
    Proving.Counted s.settings.premises state := by
  induction h with
  | start => exact .start s.settings.premises
  | @next lines announced events state state' source line _ _ hturn ih =>
      rcases onLine_of_counted ih line with ⟨events', state₁, hnext, hcounted⟩ | ⟨error, hstop⟩
      · obtain rfl := Turn.next_unique hnext hturn
        exact hcounted
      · exact (Turn.not_next_and_stop hturn hstop).elim

/-! ## The account -/

/-- What the counts of a survey say about its lines, over each of which an event was announced. -/
structure SurveyAccount (s : Session) (accepted : Event → Bool) (run : Run Report) (announced : List Event) :
    Prop where
  heard : run.events = announced.filter s.audience.hears
  counted : Surveyed accepted announced (run.session.tally, run.result)
  lines : run.session.tally.lines = announced.countP accepted + run.session.tally.failures
  strict : s.settings.strict = true → run.session.tally.failures ≤ 1

/-- What the counts of a proof run say about its lines. -/
structure ProofAccount (s : Session) (run : Run (Except ProofFailure ProofReport)) : Prop where
  premises_le : run.session.tally.premises ≤ s.settings.premises
  premises_eq : 0 < run.session.tally.steps → run.session.tally.premises = s.settings.premises
  proved : ∀ report, run.result = .ok report →
    run.session.tally.failures = 0 ∧
      run.session.tally.lines = run.session.tally.premises + run.session.tally.steps ∧
        report.proof.length = run.session.tally.steps
  /-- The failure is on the last line, or all lines were accepted and the proof cannot be optimized. -/
  failed : ∀ failure, run.result = .error failure →
    run.session.tally.failures = 1 ∧
      ((run.session.tally.lines = run.session.tally.premises + run.session.tally.steps + 1 ∧
          failure.line = run.session.tally.lines ∧ failure.step = run.session.tally.steps + 1) ∨
        (run.session.tally.lines = run.session.tally.premises + run.session.tally.steps ∧
          failure = ⟨0, 0, .proof .alreadyOptimal⟩))

/-- The account of a survey that has ended. -/
theorem exists_surveyAccount {accepted : Event → Bool} {inspect : Formula → Tally → Finding}
    (hinspect : Candid accepted inspect) {source : Source} {run : Run Report}
    (hrun : ((survey s.settings.strict inspect).run s.settings.reading ({}, .success) source).map s.conclude =
      some run) :
    ∃ announced, SurveyAccount s accepted run announced := by
  obtain ⟨ending, hends, rfl⟩ := Procedure.exists_ends_of_conclude hrun
  obtain ⟨hsurveyed, hstrict⟩ := surveyed_of_ends hinspect hends
  exact ⟨ending.events, rfl, hsurveyed, hsurveyed.lines_eq, hstrict⟩

/-- **Every proof run has its account.** -/
theorem exists_proofAccount (s : Session) (source : Source) :
    ∃ run, s.prove source = some run ∧ ProofAccount s run := by
  obtain ⟨ending, hends, hprove⟩ := exists_prove s source
  obtain ⟨lines, announced, state, last, hreaches, hlast⟩ := hends.exists_reaches
  have hcounted := counted_of_reaches hreaches
  refine ⟨_, hprove, ?_⟩
  have hpremises_le : state.tally.premises ≤ s.settings.premises := by
    rw [hcounted.premises]
    exact hcounted.premises_le
  have hpremises_eq : 0 < state.tally.steps → state.tally.premises = s.settings.premises := by
    rw [hcounted.steps, hcounted.premises]
    exact hcounted.premises_eq
  cases hlast with
  | finished hline =>
      change ProofAccount s (s.conclude ⟨Proving.finish s.settings.proofMode state, announced, _⟩)
      rcases Proving.finish_cases s.settings.proofMode state with ⟨report, hfinish, hlength⟩ | hfinish
      · rw [hfinish]
        refine ⟨hpremises_le, hpremises_eq, ?_, nofun⟩
        intro report' hreport
        obtain rfl := Except.ok.inj hreport
        exact ⟨hcounted.unfailed, hcounted.lines, hlength.trans hcounted.steps.symm⟩
      · rw [hfinish]
        refine ⟨hpremises_le, hpremises_eq, nofun, ?_⟩
        intro failure hfailure
        obtain rfl := Except.error.inj hfailure
        exact ⟨congrArg (· + 1) hcounted.unfailed, Or.inr ⟨hcounted.lines, rfl⟩⟩
  | @stopped line events result hline hturn =>
      rcases onLine_of_counted hcounted line with ⟨events', state', hnext, -⟩ | ⟨error, hstop⟩
      · exact (Turn.not_next_and_stop hnext hturn).elim
      · obtain rfl := Turn.stop_unique hstop hturn
        refine ⟨hpremises_le, hpremises_eq, nofun, ?_⟩
        intro failure hfailure
        obtain rfl := Except.error.inj hfailure
        refine ⟨congrArg (· + 1) hcounted.unfailed, Or.inl ⟨congrArg (· + 1) hcounted.lines, rfl, ?_⟩⟩
        exact congrArg (· + 1) hcounted.steps.symm

/-- **The counts of a run account for its lines**, whatever session it is a run of, and whatever is counted there
from before. A survey that announces formulas counts lines and failures, and every line that is no failure has
announced its formula; one that classifies them counts the axioms too, which are the lines that are no failures.
A proof run always ends; its lines are its premises, its steps and the line on which it has failed. -/
theorem counts_account_for_lines (s : Session) (source : Source) :
    (∀ run, s.echo source = some run → ∃ announced, SurveyAccount s Event.isFormula run announced ∧
        run.session.tally.axioms = 0 ∧
          (s.audience.formulas = true →
            run.session.tally.lines = run.events.countP Event.isFormula + run.session.tally.failures)) ∧
      (∀ run, s.checkAxioms source = some run → ∃ announced, SurveyAccount s Event.isAxiom run announced ∧
        run.session.tally.lines = run.session.tally.axioms + run.session.tally.failures) ∧
      ∃ run, s.prove source = some run ∧ ProofAccount s run := by
  refine ⟨?_, ?_, exists_proofAccount s source⟩
  · intro run hrun
    obtain ⟨announced, haccount⟩ := exists_surveyAccount candid_inspectFormula hrun
    refine ⟨announced, haccount, ?_, ?_⟩
    · -- What is announced is a formula or a failure, and neither is an axiom.
      rw [haccount.counted.axioms, List.countP_eq_zero]
      intro event hevent haxiom
      have hsorted := haccount.counted.sorted event hevent
      match event, haxiom with
      | .classified f (some type), _ => exact nomatch hsorted
    · intro hformulas
      rw [haccount.heard, List.countP_filter, haccount.lines]
      congr 1
      apply List.countP_congr
      intro event _
      cases event <;> simp [Event.isFormula, Audience.hears, hformulas]
  · intro run hrun
    obtain ⟨announced, haccount⟩ := exists_surveyAccount (candid_inspectAxiom s.system) hrun
    refine ⟨announced, haccount, ?_⟩
    rw [haccount.lines, ← haccount.counted.axioms]

end Session

end PropositionalCalculus
