import PropositionalCalculus.Proofs.Proof.Extension
import PropositionalCalculus.Proofs.Proof.Marking
import PropositionalCalculus.Proofs.Line.Sequence
import PropositionalCalculus.Proofs.Session.Procedure

/-!
# What a proof run checks

A proof run that ends well has read formulas only: the first of them as premises, the others as steps.
`Proof.extend?` checks such steps without any lines. A run on a source and this check accept the same
formulas, and the report is about the proof that the check gives (`exists_prove_of_reads`,
`exists_reads_of_prove`).
-/

set_option autoImplicit false

namespace PropositionalCalculus

/-- The report on a proof whose steps were all accepted. -/
def ProofMode.report : ProofMode → Proof → Except ProofFailure ProofReport
  | verify, p => .ok (.verified p)
  | optimize, p =>
      match p.optimize with
      | (.ok _, marked) => .ok (.optimized marked)
      | (.error error, _) => .error ⟨0, 0, .proof error⟩

/-- An optimizing run reports the marked proof, unless every member has its mark. -/
theorem ProofMode.report_optimize (p : Proof) :
    ProofMode.optimize.report p =
      if p.markNeeded.keptCount = p.markNeeded.length then .error ⟨0, 0, .proof .alreadyOptimal⟩
      else .ok (.optimized p.markNeeded) := by
  by_cases h : p.markNeeded.keptCount = p.markNeeded.length
  · simp only [report, Proof.optimize, if_pos h]
  · simp only [report, Proof.optimize, if_neg h]

/-- A report is about a proof of the formulas that were checked. -/
theorem ProofMode.formulas_of_report {mode : ProofMode} {p : Proof} {report : ProofReport}
    (h : mode.report p = .ok report) : report.proof.formulas = p.formulas := by
  cases mode with
  | verify =>
      obtain rfl := Except.ok.inj h
      rfl
  | optimize =>
      rw [report_optimize] at h
      split at h
      · exact nomatch h
      · obtain rfl := Except.ok.inj h
        exact p.formulas_markNeeded

namespace Proving

variable {system : ProofSystem}

/-- The proof of a state after further formulas, the first of which are premises as long as the state has
less than `count` of them; or why the first bad step is not accepted. -/
def State.extend? (system : ProofSystem) (count : Nat) (state : State) (fs : List Formula) :
    Except ProofError Proof :=
  state.proof.extend? system (state.premises ++ fs.take (count - state.premises.length))
    (fs.drop (count - state.premises.length))

namespace State

variable {count : Nat} {state : State}

theorem extend?_nil : state.extend? system count [] = .ok state.proof := by
  rw [extend?, List.drop_nil, Proof.extend?_nil]

/-- With all premises there, every formula is a step. -/
theorem extend?_of_le (state : State) (h : count ≤ state.premises.length) (fs : List Formula) :
    state.extend? system count fs = state.proof.extend? system state.premises fs := by
  rw [extend?, Nat.sub_eq_zero_of_le h, List.take_zero, List.append_nil, List.drop_zero]

/-- With premises missing, the next formula is one of them. -/
theorem extend?_cons_of_lt (h : state.premises.length < count) (tally : Tally) (f : Formula)
    (fs : List Formula) :
    state.extend? system count (f :: fs) =
      (⟨tally, state.premises ++ [f], state.proof⟩ : State).extend? system count fs := by
  obtain ⟨others, hothers⟩ : ∃ others, count - state.premises.length = others + 1 :=
    ⟨count - state.premises.length - 1, by omega⟩
  have hlength : count - (state.premises ++ [f]).length = others := by
    rw [List.length_append, List.length_singleton]
    omega
  simp only [extend?, hothers, hlength, List.take_succ_cons, List.drop_succ_cons, List.append_assoc,
    List.singleton_append]

end State

theorem finish_snd (mode : ProofMode) (state : State) :
    (finish mode state).2 = mode.report state.proof := by
  cases mode with
  | verify => rfl
  | optimize =>
      rw [finish, ProofMode.report]
      rcases state.proof.optimize with ⟨_ | _, marked⟩ <;> rfl

/-- Whether the next step is accepted decides how `takeStep` goes on. -/
theorem takeStep_cases (system : ProofSystem) (mode : ProofMode) (state : State) (f : Formula) :
    (∃ p events tally, state.proof.step? system state.premises f = .ok p ∧
        takeStep system mode state f = (events, .next ⟨tally, state.premises, p⟩)) ∨
      ∃ error, state.proof.step? system state.premises f = .error error ∧
        takeStep system mode state f = ([], .stop (state.fail (.proof error))) := by
  rw [Proof.step?]
  cases hjust : justify? system state.premises state.proof f with
  | none => exact Or.inr ⟨_, rfl, by rw [takeStep, hjust]⟩
  | some justification =>
      cases hpush : state.proof.push? f justification.witnesses with
      | error error => exact Or.inr ⟨error, hpush, by simp only [takeStep, hjust, hpush]⟩
      | ok p =>
          have htake : ∃ events tally, takeStep system mode state f =
              (events, .next ⟨tally, state.premises, p⟩) := by
            rw [takeStep, hjust]
            simp only [hpush]
            exact ⟨_, _, rfl⟩
          obtain ⟨events, tally, hnext⟩ := htake
          exact Or.inl ⟨p, events, tally, hpush, hnext⟩

end Proving

namespace Session

variable {s : Session}

theorem proofProcedure_stopsAtErrors (s : Session) : s.proofProcedure.StopsAtErrors := by
  intro state error
  exact ⟨_, _, rfl⟩

/-- **What a formula does to a run**: it goes on, and what it would take to be accepted is unchanged, or it stops
with the error of the first step that is not accepted. -/
theorem onLine_cases (state : Proving.State) (f : Formula) :
    (∃ events state', s.proofProcedure.onLine state (.ok f) = (events, .next state') ∧
      ∀ fs, state.extend? s.system s.settings.premises (f :: fs) =
        state'.extend? s.system s.settings.premises fs) ∨
      ∃ tally failure error, s.proofProcedure.onLine state (.ok f) = ([], .stop (tally, .error failure)) ∧
        ∀ fs, state.extend? s.system s.settings.premises (f :: fs) = .error error := by
  by_cases hmissing : state.premises.length < s.settings.premises
  · -- The formula is a premise.
    exact Or.inl ⟨[], _, if_pos hmissing, Proving.State.extend?_cons_of_lt hmissing _ f⟩
  · -- All premises are there, so the formula is a step.
    have hall := Nat.le_of_not_lt hmissing
    have hline : s.proofProcedure.onLine state (.ok f) = Proving.takeStep s.system s.settings.proofMode
        ⟨state.tally.countLine, state.premises, state.proof⟩ f :=
      if_neg hmissing
    rcases Proving.takeStep_cases s.system s.settings.proofMode
        ⟨state.tally.countLine, state.premises, state.proof⟩ f with
      ⟨p, events, tally, hstep, htake⟩ | ⟨error, hstep, htake⟩
    · refine Or.inl ⟨events, _, hline.trans htake, ?_⟩
      intro fs
      rw [Proving.State.extend?_of_le state hall, Proof.extend?_cons_of_ok hstep]
      exact (Proving.State.extend?_of_le ⟨tally, state.premises, p⟩ hall fs).symm
    · refine Or.inr ⟨_, _, error, hline.trans htake, ?_⟩
      intro fs
      rw [Proving.State.extend?_of_le state hall, Proof.extend?_cons_of_error hstep]

/-- Formulas that are accepted take a run from any state to its end. -/
theorem exists_ends_of_reads {source rest : Source} {fs : List Formula}
    (h : s.settings.reading.Reads source fs rest) {state : Proving.State} {p : Proof}
    (hp : state.extend? s.system s.settings.premises fs = .ok p) :
    ∃ ending, s.proofProcedure.Ends s.settings.reading state source ending ∧
      ending.result.2 = s.settings.proofMode.report p := by
  induction h generalizing state with
  | nothing hline =>
      rw [Proving.State.extend?_nil] at hp
      obtain rfl := Except.ok.inj hp
      exact ⟨_, .finished (by rw [hline]; rfl), Proving.finish_snd _ _⟩
  | @formula source next rest f fs hline _ ih =>
      have hgiven : (s.settings.reading.readLine source).1.line? = some (.ok f) := by
        rw [hline]
        rfl
      have hnext : (s.settings.reading.readLine source).2 = next := by rw [hline]
      rcases onLine_cases (s := s) state f with
        ⟨events, state', hturn, hstate⟩ | ⟨tally, failure, error, -, herror⟩
      · rw [hstate] at hp
        obtain ⟨ending, hends, hresult⟩ := ih hp
        exact ⟨_, .next hgiven hturn (hnext ▸ hends), hresult⟩
      · simp [herror] at hp

/-- A run that ends with a report has read formulas that are accepted. -/
theorem exists_reads_of_ends {source : Source} {state : Proving.State} {ending : Ending Proving.Result}
    (h : s.proofProcedure.Ends s.settings.reading state source ending) {report : ProofReport}
    (hreport : ending.result.2 = .ok report) :
    ∃ fs rest p, s.settings.reading.Reads source fs rest ∧
      state.extend? s.system s.settings.premises fs = .ok p ∧
        s.settings.proofMode.report p = .ok report := by
  induction h with
  | @finished state source hline =>
      have hread : s.settings.reading.readLine source =
          (.ok none, (s.settings.reading.readLine source).2) :=
        Prod.ext (Procedure.line?_eq_none hline) rfl
      exact ⟨[], _, state.proof, .nothing hread, Proving.State.extend?_nil,
        (Proving.finish_snd _ _).symm.trans hreport⟩
  | @stopped state source line events result hline hturn =>
      -- Whatever stops a run before its end is a failure.
      cases line with
      | error error =>
          obtain rfl := Turn.stop.inj (Prod.mk.inj hturn).2
          simp [Proving.State.fail] at hreport
      | ok f =>
          rcases onLine_cases (s := s) state f with
            ⟨events', state', hnext, -⟩ | ⟨tally, failure, error, hstop, -⟩
          · simp [hnext] at hturn
          · obtain rfl := Turn.stop_unique hturn hstop
            simp at hreport
  | @next state state' source line events ending hline hturn _ ih =>
      obtain ⟨fs, rest, p, hreads, hp, hmode⟩ := ih hreport
      cases line with
      | error error => simp [proofProcedure] at hturn
      | ok f =>
          have hread : s.settings.reading.readLine source =
              (.ok (some f), (s.settings.reading.readLine source).2) :=
            Prod.ext (Procedure.line?_eq_ok hline) rfl
          rcases onLine_cases (s := s) state f with
            ⟨events', state₁, hnext, hstate⟩ | ⟨tally, failure, error, hstop, -⟩
          · obtain rfl := Turn.next_unique hturn hnext
            exact ⟨f :: fs, rest, p, .formula hread hreads, (hstate fs).trans hp, hmode⟩
          · simp [hstop] at hturn

/-- The session with another proof mode. -/
def withMode (s : Session) (mode : ProofMode) : Session :=
  { s with settings := { s.settings with proofMode := mode } }

/-- A proof run always ends, as its procedure does. -/
theorem exists_prove (s : Session) (source : Source) :
    ∃ ending, s.proofProcedure.Ends s.settings.reading .start source ending ∧
      s.prove source = some (s.conclude ending) := by
  obtain ⟨ending, hrun, hends⟩ := Procedure.run_eq_some (n := s.settings.reading)
    (proofProcedure_stopsAtErrors s) Proving.State.start source
  exact ⟨ending, hends, by rw [prove, hrun]; rfl⟩

/-- **Lines with premises and acceptable steps are proved**, with a report on the proof that they are. -/
theorem exists_prove_of_reads {source rest : Source} {fs : List Formula}
    (h : s.settings.reading.Reads source fs rest) {p : Proof}
    (hp : Proof.empty.extend? s.system (fs.take s.settings.premises) (fs.drop s.settings.premises) =
      .ok p) :
    ∃ run, s.prove source = some run ∧ run.result = s.settings.proofMode.report p := by
  obtain ⟨e, hends, hresult⟩ := @exists_ends_of_reads s source rest fs h .start p hp
  obtain ⟨ending, hends', hprove⟩ := exists_prove s source
  obtain rfl := hends.unique hends'
  exact ⟨_, hprove, hresult⟩

/-- **Premises and acceptable steps that are written down are proved.** -/
theorem exists_prove_of_lines {premises steps : List Formula} (hplain : ∀ f ∈ premises ++ steps, f.Plain)
    (hcount : s.settings.premises = premises.length) {p : Proof}
    (hp : Proof.empty.extend? s.system premises steps = .ok p) :
    ∃ run, s.prove (.ofBytes (Formula.lines s.settings.reading (premises ++ steps))) = some run ∧
      run.result = s.settings.proofMode.report p := by
  apply exists_prove_of_reads (Notation.reads_lines hplain)
  rwa [List.take_left' hcount.symm, List.drop_left' hcount.symm]

/-- **A run that reports a proof has read its premises and then acceptable steps.** -/
theorem exists_reads_of_prove {source : Source} {run : Run (Except ProofFailure ProofReport)}
    (hrun : s.prove source = some run) {report : ProofReport} (hreport : run.result = .ok report) :
    ∃ fs rest p, s.settings.reading.Reads source fs rest ∧
      Proof.empty.extend? s.system (fs.take s.settings.premises) (fs.drop s.settings.premises) = .ok p ∧
        s.settings.proofMode.report p = .ok report := by
  obtain ⟨ending, hends, hprove⟩ := exists_prove s source
  obtain rfl := Option.some.inj (hrun.symm.trans hprove)
  exact exists_reads_of_ends hends hreport

end Session

end PropositionalCalculus
