import PropositionalCalculus.Proofs.Session.Verification

/-!
# Verifying and optimizing

The mode of a proof run decides about what it announces and about what becomes of an accepted proof, and about
nothing else: in both modes a run takes the same turns on every line (`Session.silences_withMode`). So the two runs
on a source get equally far, whatever proof system there is and whether the source fails or not, and their
endings can be compared (`Session.prove_modes_agree`).
-/

set_option autoImplicit false

namespace PropositionalCalculus

/-- A proof that cannot be optimized is optimal already. -/
theorem Proof.eq_alreadyOptimal {p : Proof} {error : ProofError} (h : p.optimize.1 = .error error) :
    error = .alreadyOptimal := by
  rw [optimize] at h
  split at h
  · exact (Except.error.inj h).symm
  · cases h

namespace Proving

/-- The modes differ in what they announce of a step. -/
theorem takeStep_optimize (system : ProofSystem) (state : State) (f : Formula) :
    takeStep system .optimize state f = ([], (takeStep system .verify state f).2) := by
  rw [takeStep, takeStep]
  cases justify? system state.premises state.proof f with
  | none => rfl
  | some reason =>
      cases hpush : state.proof.push? f reason.witnesses with
      | error error => simp only [hpush]
      | ok p => simp only [hpush]

theorem takeFormula_optimize (system : ProofSystem) (settings : Settings) (state : State) (f : Formula) :
    takeFormula system { settings with proofMode := .optimize } state f =
      ([], (takeFormula system { settings with proofMode := .verify } state f).2) := by
  by_cases hmissing : state.premises.length < settings.premises
  · simp only [takeFormula, if_pos hmissing]
  · simp only [takeFormula, if_neg hmissing]
    exact takeStep_optimize system state f

theorem finish_of_ok {state : State} {count : Nat} (h : state.proof.optimize.1 = .ok count) :
    finish .optimize state = (state.tally, .ok (.optimized state.proof.optimize.2)) := by
  rw [finish]
  rcases hoptimize : state.proof.optimize with ⟨error | count', marked⟩
  · have hboth : Except.error error = .ok count := (congrArg Prod.fst hoptimize).symm.trans h
    cases hboth
  · rfl

/-- An optimal proof is the first failure of its run. -/
theorem finish_of_error {state : State} (hunfailed : state.tally.failures = 0) {error : ProofError}
    (h : state.proof.optimize.1 = .error error) :
    finish .optimize state =
      ({ state.tally with failures := 1 }, .error ⟨0, 0, .proof .alreadyOptimal⟩) := by
  have hcount : state.tally.countFailure = { state.tally with failures := 1 } := by
    rw [Tally.countFailure, hunfailed]
  obtain rfl := Proof.eq_alreadyOptimal h
  rw [finish, ← hcount]
  rcases hoptimize : state.proof.optimize with ⟨error' | count, marked⟩
  · obtain rfl := Except.error.inj ((congrArg Prod.fst hoptimize).symm.trans h)
    rfl
  · have hboth : Except.ok count = .error ProofError.alreadyOptimal := (congrArg Prod.fst hoptimize).symm.trans h
    cases hboth

end Proving

namespace Session

/-- **An optimizing run takes the turns of a verifying one, in silence.** -/
theorem silences_withMode (s : Session) :
    (s.withMode .optimize).proofProcedure.Silences (s.withMode .verify).proofProcedure := by
  intro state line
  cases line with
  | error error => rfl
  | ok f => exact Proving.takeFormula_optimize s.system s.settings _ f

/-- **Verifying and optimizing agree.** On every source, with every proof system, both runs leave the same of the
source, and the optimizing one announces nothing. When the verifying run fails, the optimizing one fails in the
same way, with the same counts. A proof that is verified has no marks, and the optimizing run reports what
optimizing this proof gives; its counts are the same but for the failure when the proof is optimal already. -/
theorem prove_modes_agree (s : Session) (source : Source) :
    ∃ verifying optimizing,
      (s.withMode .verify).prove source = some verifying ∧
      (s.withMode .optimize).prove source = some optimizing ∧
      optimizing.source = verifying.source ∧ optimizing.events = [] ∧
      (∀ failure, verifying.result = .error failure →
        optimizing.result = .error failure ∧ optimizing.session.tally = verifying.session.tally) ∧
      ∀ report, verifying.result = .ok report → ∃ p, report = .verified p ∧
        (∀ m ∈ p.members, m.kept = false) ∧ verifying.session.tally.failures = 0 ∧
        (∀ count, p.optimize.1 = .ok count →
          optimizing.result = .ok (.optimized p.optimize.2) ∧
            optimizing.session.tally = verifying.session.tally) ∧
        ∀ error, p.optimize.1 = .error error →
          error = .alreadyOptimal ∧ optimizing.result = .error ⟨0, 0, .proof .alreadyOptimal⟩ ∧
            optimizing.session.tally = { verifying.session.tally with failures := 1 } := by
  obtain ⟨verified, hends, hverify⟩ := exists_prove (s.withMode .verify) source
  obtain ⟨optimized, hends', hoptimize⟩ := exists_prove (s.withMode .optimize) source
  refine ⟨_, _, hverify, hoptimize, ?_⟩
  -- Both runs get to the same state, and the last turn is taken there.
  obtain ⟨lines, announced, state, last, hreaches, hlast⟩ := hends.exists_reaches
  have hsilent := hreaches.silenced (silences_withMode s)
  obtain ⟨fs, -, hreached⟩ := exists_reached rfl hreaches
  cases hlast with
  | finished hline =>
      obtain rfl := hends'.unique (hsilent.ends (.finished hline))
      refine ⟨rfl, rfl, ?_, ?_⟩
      · intro failure hfailure
        have hverified : Except.ok (ProofReport.verified state.proof) = .error failure := hfailure
        exact nomatch hverified
      · intro report hreport
        refine ⟨state.proof, (Except.ok.inj hreport).symm, hreached.checked.unmarked, hreached.unfailed, ?_, ?_⟩
        · intro count hcount
          have hfinish := Proving.finish_of_ok hcount
          have htally : (Proving.finish .optimize state).1 = state.tally := congrArg Prod.fst hfinish
          exact ⟨congrArg Prod.snd hfinish, htally⟩
        · intro error herror
          have hfinish := Proving.finish_of_error hreached.unfailed herror
          have htally := congrArg Prod.fst hfinish
          exact ⟨Proof.eq_alreadyOptimal herror, congrArg Prod.snd hfinish, htally⟩
  | @stopped line events result hline hturn =>
      have hstop : (s.withMode .optimize).proofProcedure.onLine state line = ([], .stop result) := by
        rw [silences_withMode, hturn]
      obtain rfl := hends'.unique (hsilent.ends (.stopped hline hstop))
      refine ⟨rfl, rfl, fun failure hfailure => ⟨hfailure, rfl⟩, ?_⟩
      -- A run that stops before the last line has failed.
      intro report hreport
      obtain ⟨-, error, hfailed, -⟩ := course_of_stop rfl hreached hturn
      exact nomatch hfailed.symm.trans hreport

end Session

end PropositionalCalculus
