import PropositionalCalculus.Proofs.Session.Counting
import PropositionalCalculus.Proofs.Session.Termination

/-!
# Checking axioms and proving without premises

A check of axioms and a verifying run without premises read the same lines. `AxiomLines` says that the first lines of
a source are axioms. Both runs go on over such lines and count the same (`AxiomLines.check_reaches`,
`AxiomLines.proof_reaches`), and where one of them has met nothing else, the lines are axioms
(`exists_axiomLines_of_check`, `exists_axiomLines_of_proof`). So the check succeeds exactly when every step of the
proof is an axiom, and a line that cannot be read is the first failure of both (`Session.checkAxioms_agrees_with_prove`).
-/

set_option autoImplicit false

namespace PropositionalCalculus

/-! ## Lines that are axioms -/

/-- The first lines of a source give axioms, each of the given type, and leave the rest. -/
inductive AxiomLines (system : ProofSystem) (n : Notation) (source : Source) :
    List (Formula × Nat) → Source → Prop where
  | nothing : AxiomLines system n source [] source
  | line {axioms : List (Formula × Nat)} {rest : Source} {f : Formula} {type : Nat} :
      AxiomLines system n source axioms rest → (n.readLine rest).1 = .ok (some f) →
        system.axiomType? f = some type →
          AxiomLines system n source (axioms ++ [(f, type)]) (n.readLine rest).2

namespace AxiomLines

/-- The formulas of the axioms as lines that were read. -/
def read (axioms : List (Formula × Nat)) : List (Except LineError Formula) :=
  axioms.map fun a => .ok a.1

/-- What a check of axioms announces of them. -/
def classified (axioms : List (Formula × Nat)) : List Event :=
  axioms.map fun a => .classified a.1 (some a.2)

/-- What a verifying run announces of them when they are its steps. -/
def steps (axioms : List (Formula × Nat)) : List Event :=
  axioms.mapIdx fun i a => .step (i + 1) a.1 (.axiomOfType a.2)

/-- The counts of a run whose lines are axioms. -/
def tally (axioms : List (Formula × Nat)) : Tally :=
  { lines := axioms.length, axioms := axioms.length }

/-- The proof that has them as its members. -/
def proof (axioms : List (Formula × Nat)) : Proof :=
  ⟨axioms.map fun a => ⟨a.1, [], false⟩⟩

variable {axioms : List (Formula × Nat)} {f : Formula} {type : Nat}

theorem read_snoc : read (axioms ++ [(f, type)]) = read axioms ++ [.ok f] := by
  simp [read]

theorem classified_snoc : classified (axioms ++ [(f, type)]) = classified axioms ++ [.classified f (some type)] := by
  simp [classified]

theorem length_proof : (proof axioms).length = axioms.length := by
  simp [proof, Proof.length]

theorem steps_snoc :
    steps (axioms ++ [(f, type)]) = steps axioms ++ [.step ((proof axioms).length + 1) f (.axiomOfType type)] := by
  simp [steps, length_proof]

theorem tally_snoc : tally (axioms ++ [(f, type)]) = (tally axioms).countLine.countAxiom := by
  simp [tally, Tally.countLine, Tally.countAxiom]

theorem proof_snoc : proof (axioms ++ [(f, type)]) = (proof axioms).withStep f (.axiomOfType type) := by
  simp [proof, Proof.withStep, Justification.witnesses]

end AxiomLines

namespace Event

/-- A step that is an axiom. -/
def isAxiomStep : Event → Bool
  | step _ _ (.axiomOfType _) => true
  | _ => false

end Event

section

variable {system : ProofSystem} {n : Notation} {source rest : Source} {axioms : List (Formula × Nat)}
  {lines : List (Except LineError Formula)} {announced : List Event}

/-! ## The check of axioms -/

section Check

variable {strict : Bool} {state : Tally × Report}

/-- A survey stops at a failure only. -/
theorem failure_of_stop {accepted : Event → Bool} {inspect : Formula → Tally → Finding}
    (hinspect : Candid accepted inspect) {line : Except LineError Formula} {events : List Event}
    {result : Tally × Report} (hturn : (survey strict inspect).onLine state line = (events, .stop result)) :
    result.2 = .failure := by
  obtain ⟨event, -, honLine⟩ := survey_onLine strict hinspect state line
  rw [honLine] at hturn
  obtain ⟨-, hresult⟩ := Prod.mk.inj hturn
  split at hresult
  · rename_i hfailure
    rw [Bool.and_eq_true] at hfailure
    obtain rfl := Turn.stop.inj hresult
    exact if_pos hfailure.2
  · cases hresult

theorem axiomTurn_of_some {f : Formula} {type : Nat} (h : system.axiomType? f = some type) :
    (survey strict (inspectAxiom system)).onLine state (.ok f) =
      ([.classified f (some type)], .next (state.1.countLine.countAxiom, state.2)) := by
  simp [survey, inspectAxiom, h]

/-- Only an axiom is announced as one. -/
theorem exists_type_of_isAxiom {line : Except LineError Formula} {event : Event}
    (hannounced : event ∈ ((survey strict (inspectAxiom system)).onLine state line).1) (h : event.isAxiom = true) :
    ∃ f type, line = .ok f ∧ system.axiomType? f = some type := by
  cases line with
  | error error =>
      obtain rfl := List.mem_singleton.1 hannounced
      simp [Event.isAxiom] at h
  | ok f =>
      cases htype : system.axiomType? f with
      | some type => exact ⟨f, type, rfl, htype⟩
      | none =>
          simp only [survey, inspectAxiom, htype, List.mem_singleton] at hannounced
          subst hannounced
          simp [Event.isAxiom] at h

/-- **The check of axioms goes on over axioms.** -/
theorem AxiomLines.check_reaches (h : AxiomLines system n source axioms rest) :
    (survey strict (inspectAxiom system)).Reaches n ({}, .success) source (read axioms) (classified axioms)
      (tally axioms, .success) rest := by
  induction h with
  | nothing => exact .start
  | line _ hline htype ih =>
      rw [read_snoc, classified_snoc, tally_snoc]
      apply ih.next
      · rw [hline]
        rfl
      · exact axiomTurn_of_some htype

/-- A check that has announced axioms only has read axioms only. -/
theorem exists_axiomLines_of_check
    (h : (survey strict (inspectAxiom system)).Reaches n ({}, .success) source lines announced state rest)
    (hall : ∀ event ∈ announced, event.isAxiom = true) :
    ∃ axioms, AxiomLines system n source axioms rest ∧ lines = AxiomLines.read axioms ∧
      announced = AxiomLines.classified axioms ∧ state = (AxiomLines.tally axioms, .success) := by
  induction h with
  | start => exact ⟨[], .nothing, rfl, rfl, rfl⟩
  | @next lines announced events state state' rest line hreaches hline hturn ih =>
      obtain ⟨axioms, haxioms, rfl, rfl, rfl⟩ := ih fun event hevent => hall event (List.mem_append_left _ hevent)
      -- One event is announced of the line, and it is that of an axiom.
      obtain ⟨event, -, hone⟩ := survey_onLine strict (candid_inspectAxiom system) (AxiomLines.tally axioms, .success) line
      have hevent : event ∈ ((survey strict (inspectAxiom system)).onLine (AxiomLines.tally axioms, .success) line).1 := by
        simp [hone]
      have hmem : event ∈ events := by rwa [hturn] at hevent
      obtain ⟨f, type, rfl, htype⟩ := exists_type_of_isAxiom hevent (hall event (List.mem_append_right _ hmem))
      obtain ⟨rfl, hstate⟩ := Prod.mk.inj ((axiomTurn_of_some htype).symm.trans hturn)
      obtain rfl := Turn.next.inj hstate
      refine ⟨axioms ++ [(f, type)], haxioms.line (Procedure.line?_eq_ok hline) htype, ?_, ?_, ?_⟩
      · exact AxiomLines.read_snoc.symm
      · exact AxiomLines.classified_snoc.symm
      · rw [AxiomLines.tally_snoc]

end Check

/-! ## Proofs without premises -/

section Proving

variable {s : Session} {state : Proving.State}

/-- A warranted step of a verifying run that has all its premises. -/
theorem onLine_of_warrant (hmode : s.settings.proofMode = .verify) (hpremises : s.settings.premises = 0) {f : Formula}
    {reason : Justification} (hwarrant : Warrant s.system state.premises state.proof f reason) :
    s.proofProcedure.onLine state (.ok f) =
      ([.step (state.proof.length + 1) f reason],
        .next ⟨state.tally.countLine.countStep reason, state.premises, state.proof.withStep f reason⟩) := by
  have henough : ¬ state.premises.length < s.settings.premises := by simp [hpremises]
  have hline : s.proofProcedure.onLine state (.ok f) =
      Proving.takeStep s.system .verify ⟨state.tally.countLine, state.premises, state.proof⟩ f := by
    rw [← hmode]
    exact if_neg henough
  rw [hline]
  exact Proving.takeStep_of_warrant hwarrant

/-- **Without premises a run that goes on has taken a step.** -/
theorem exists_step_of_turn (hmode : s.settings.proofMode = .verify) (hpremises : s.settings.premises = 0)
    {line : Except LineError Formula} {events : List Event} {state' : Proving.State}
    (hturn : s.proofProcedure.onLine state line = (events, .next state')) :
    ∃ f reason, line = .ok f ∧ Warrant s.system state.premises state.proof f reason ∧
      events = [.step (state.proof.length + 1) f reason] ∧
      state' = ⟨state.tally.countLine.countStep reason, state.premises, state.proof.withStep f reason⟩ := by
  rcases s.onLine_turns state line with
    ⟨f, -, hmissing, -⟩ | ⟨f, reason, events', rfl, -, hwarrant, -⟩ | ⟨error, -, hstop⟩
  · simp [hpremises] at hmissing
  · obtain ⟨hevents, hstate⟩ := Prod.mk.inj (hturn.symm.trans (onLine_of_warrant hmode hpremises hwarrant))
    exact ⟨f, reason, rfl, hwarrant, hevents, Turn.next.inj hstate⟩
  · exact (Turn.not_next_and_stop hturn hstop).elim

/-- **A verifying run goes on over axioms.** -/
theorem AxiomLines.proof_reaches (hmode : s.settings.proofMode = .verify) (hpremises : s.settings.premises = 0)
    (h : AxiomLines s.system n source axioms rest) :
    s.proofProcedure.Reaches n .start source (read axioms) (steps axioms) ⟨tally axioms, [], proof axioms⟩ rest := by
  induction h with
  | nothing => exact .start
  | line _ hline htype ih =>
      rw [read_snoc, steps_snoc, tally_snoc, proof_snoc]
      apply ih.next
      · rw [hline]
        rfl
      · exact onLine_of_warrant hmode hpremises (.axiomOfType htype)

/-- A verifying run that has announced axioms only has read axioms only. -/
theorem exists_axiomLines_of_proof (hmode : s.settings.proofMode = .verify) (hpremises : s.settings.premises = 0)
    (h : s.proofProcedure.Reaches n .start source lines announced state rest)
    (hall : ∀ event ∈ announced, event.isAxiomStep = true) :
    ∃ axioms, AxiomLines s.system n source axioms rest ∧ announced = AxiomLines.steps axioms ∧
      state = ⟨AxiomLines.tally axioms, [], AxiomLines.proof axioms⟩ := by
  induction h with
  | start => exact ⟨[], .nothing, rfl, rfl⟩
  | @next lines announced events state state' rest line _ hline hturn ih =>
      obtain ⟨axioms, haxioms, rfl, rfl⟩ := ih fun event hevent => hall event (List.mem_append_left _ hevent)
      obtain ⟨f, reason, rfl, hwarrant, rfl, rfl⟩ := exists_step_of_turn hmode hpremises hturn
      have haxiom := hall _ (List.mem_append_right _ (List.mem_singleton_self _))
      cases hwarrant with
      | premise _ _ _ => simp [Event.isAxiomStep] at haxiom
      | deduction _ _ _ _ => simp [Event.isAxiomStep] at haxiom
      | @axiomOfType type htype =>
          refine ⟨axioms ++ [(f, type)], haxioms.line (Procedure.line?_eq_ok hline) htype, ?_, ?_⟩
          · exact AxiomLines.steps_snoc.symm
          · rw [AxiomLines.tally_snoc, AxiomLines.proof_snoc]
            rfl

end Proving

/-- Where nothing comes behind the axioms, the source comes to nothing. -/
theorem AxiomLines.comesToNothing (h : AxiomLines system n source axioms rest)
    (hrest : n.ComesToNothing rest) : n.ComesToNothing source := by
  induction h with
  | nothing => exact hrest
  | line _ _ _ ih => exact ih (.later hrest)

end

namespace Session

/-- The session that verifies proofs without premises. -/
def verifier (s : Session) : Session :=
  { s with settings := { s.settings with premises := 0, proofMode := .verify } }

/-- What a check of axioms and a verifying run have in common when both find these axioms and nothing else. -/
structure BothFind (s : Session) (source : Source) (axioms : List (Formula × Nat)) (checked : Run Report)
    (proved : Run (Except ProofFailure ProofReport)) : Prop where
  check_announces :
    s.axiomProcedure.Announces s.settings.reading ({}, .success) source (AxiomLines.classified axioms)
  proof_announces :
    s.verifier.proofProcedure.Announces s.settings.reading .start source (AxiomLines.steps axioms)
  check_events : checked.events = (AxiomLines.classified axioms).filter s.audience.hears
  proof_events : proved.events = (AxiomLines.steps axioms).filter s.audience.hears
  source_eq : proved.source = checked.source
  check_tally : checked.session.tally = AxiomLines.tally axioms
  proof_tally : proved.session.tally = AxiomLines.tally axioms

variable {s : Session} {source rest : Source} {axioms : List (Formula × Nat)}

/-- The check of axioms with nothing behind them. -/
theorem check_ends_of_axiomLines (h : AxiomLines s.system s.settings.reading source axioms rest)
    (hend : (s.settings.reading.readLine rest).1.line? = none) :
    s.axiomProcedure.Ends s.settings.reading ({}, .success) source
      ⟨(AxiomLines.tally axioms, .success), AxiomLines.classified axioms, (s.settings.reading.readLine rest).2⟩ :=
  h.check_reaches.ends (.finished hend)

/-- The proof whose steps are axioms, with nothing behind them. -/
theorem proof_ends_of_axiomLines (h : AxiomLines s.system s.settings.reading source axioms rest)
    (hend : (s.settings.reading.readLine rest).1.line? = none) :
    s.verifier.proofProcedure.Ends s.settings.reading .start source
      ⟨(AxiomLines.tally axioms, .ok (.verified (AxiomLines.proof axioms))), AxiomLines.steps axioms,
        (s.settings.reading.readLine rest).2⟩ := by
  have hreaches : s.verifier.proofProcedure.Reaches s.settings.reading .start source (AxiomLines.read axioms)
      (AxiomLines.steps axioms) ⟨AxiomLines.tally axioms, [], AxiomLines.proof axioms⟩ rest :=
    AxiomLines.proof_reaches rfl rfl h
  exact hreaches.ends (.finished hend)

/-- A check of axioms with nothing behind them succeeds. -/
theorem exists_checked_of_axiomLines (h : AxiomLines s.system s.settings.reading source axioms rest)
    (hend : (s.settings.reading.readLine rest).1.line? = none) :
    ∃ checked, s.checkAxioms source = some checked ∧ checked.result = .success := by
  have hnothing : s.settings.reading.ComesToNothing source := h.comesToNothing (.now hend)
  obtain ⟨ending, hrun⟩ := s.axiomProcedure.exists_run_of_comesToNothing ({}, .success) hnothing
  have hcheck : s.checkAxioms source = some (s.conclude ending) := by
    rw [checkAxioms, hrun]
    rfl
  obtain ⟨ending', hends, hsame⟩ := Procedure.exists_ends_of_conclude hcheck
  refine ⟨_, hcheck, ?_⟩
  rw [hsame, hends.unique (check_ends_of_axiomLines h hend)]
  rfl

/-- A proof fails at a line that gives an error behind axioms, with that error. -/
theorem proof_fails_of_axiomLines {ending : Ending Proving.Result} {error : LineError}
    (h : AxiomLines s.system s.settings.reading source axioms rest)
    (hline : (s.settings.reading.readLine rest).1.line? = some (.error error))
    (hends : s.verifier.proofProcedure.Ends s.settings.reading .start source ending) :
    ending.result.2 = .error ⟨axioms.length + 1, axioms.length + 1, .line error⟩ := by
  have hreaches : s.verifier.proofProcedure.Reaches s.settings.reading .start source (AxiomLines.read axioms)
      (AxiomLines.steps axioms) ⟨AxiomLines.tally axioms, [], AxiomLines.proof axioms⟩ rest :=
    AxiomLines.proof_reaches rfl rfl h
  obtain rfl := hends.unique (hreaches.ends (.stopped hline rfl))
  change Except.error (ProofFailure.mk _ ((AxiomLines.proof axioms).length + 1) _) = _
  rw [AxiomLines.length_proof]
  rfl

/-- **A check of axioms that succeeds has met axioms only.** -/
theorem exists_axiomLines_of_success {ending : Ending (Tally × Report)}
    (h : s.axiomProcedure.Ends s.settings.reading ({}, .success) source ending) (hsuccess : ending.result.2 = .success) :
    ∃ axioms rest, AxiomLines s.system s.settings.reading source axioms rest ∧
      (s.settings.reading.readLine rest).1.line? = none := by
  obtain ⟨lines, announced, state, rest, hreaches, hlast⟩ := h.exists_reaches
  obtain ⟨hsurveyed, -⟩ := surveyed_of_reaches (candid_inspectAxiom s.system) hreaches
  cases hlast with
  | finished hline =>
      have hreport : state.2 = .success := hsuccess
      have hunfailed : state.1.failures = 0 := by
        by_contra hfailed
        simpa [hreport] using hsurveyed.report.2 (Nat.pos_of_ne_zero hfailed)
      have hall : ∀ event ∈ announced, event.isAxiom = true := by
        intro event hevent
        have hnone := List.countP_eq_zero.1 (hsurveyed.failures.symm.trans hunfailed) event hevent
        rw [hsurveyed.sorted event hevent]
        simpa using hnone
      obtain ⟨axioms, haxioms, -⟩ := exists_axiomLines_of_check hreaches hall
      exact ⟨axioms, rest, haxioms, hline⟩
  | @stopped line events result hline hturn =>
      have hfailure := failure_of_stop (candid_inspectAxiom s.system) hturn
      simp [hfailure] at hsuccess

/-- **A verifying run whose steps are all axioms has met axioms only.** -/
theorem exists_axiomLines_of_verified {ending : Ending Proving.Result}
    (h : s.verifier.proofProcedure.Ends s.settings.reading .start source ending) {report : ProofReport}
    (hreport : ending.result.2 = .ok report) (hall : ∀ event ∈ ending.events, event.isAxiomStep = true) :
    ∃ axioms rest, AxiomLines s.system s.settings.reading source axioms rest ∧
      (s.settings.reading.readLine rest).1.line? = none := by
  obtain ⟨lines, announced, state, rest, hreaches, hlast⟩ := h.exists_reaches
  cases hlast with
  | finished hline =>
      obtain ⟨axioms, haxioms, -⟩ := exists_axiomLines_of_proof (s := s.verifier) rfl rfl hreaches hall
      exact ⟨axioms, rest, haxioms, hline⟩
  | @stopped line events result hline hturn =>
      rcases s.verifier.onLine_turns state line with
        ⟨f, -, -, hnext⟩ | ⟨f, reason, events', -, -, -, hnext⟩ | ⟨error, -, hstop⟩
      · exact (Turn.not_next_and_stop hnext hturn).elim
      · exact (Turn.not_next_and_stop hnext hturn).elim
      · obtain rfl := Turn.stop_unique hstop hturn
        simp at hreport

/-- **The first failure of a check of axioms is a line that gives an error, behind axioms.** -/
theorem exists_axiomLines_of_rejected {before : List Event} {number : Nat} {error : LineError}
    (hbefore : ∀ event ∈ before, event.isAxiom = true)
    (h : s.axiomProcedure.AnnouncesUpToLine s.settings.reading ({}, .success) source
      (before ++ [.rejected number error])) :
    ∃ axioms rest, AxiomLines s.system s.settings.reading source axioms rest ∧
      (s.settings.reading.readLine rest).1.line? = some (.error error) ∧ number = axioms.length + 1 := by
  obtain ⟨lines, announced, state, rest, line, hreaches, hline, hevents⟩ := h
  cases line with
  | error error' =>
      obtain ⟨rfl, hlast⟩ := List.append_singleton_inj.1 hevents
      obtain ⟨axioms, haxioms, -, -, rfl⟩ := exists_axiomLines_of_check hreaches hbefore
      obtain ⟨rfl, rfl⟩ := Event.rejected.inj hlast
      exact ⟨axioms, rest, haxioms, hline, rfl⟩
  | ok f =>
      -- A formula is not announced as a line without one.
      obtain ⟨-, hlast⟩ := List.append_singleton_inj.1 hevents
      exact absurd hlast.symm ((candid_inspectAxiom s.system).formula f _ number error)

/-- **A check of axioms and a proof without premises agree**, on every source and with every proof system. The check
succeeds if and only if the proof is verified and every step is announced as an axiom; then both announce the same
formulas with the same types, leave the same of the source and have the same counts. If the first failure of the
check is a line that gives an error, then the proof fails at that line and at the step of that number, with the same
error. -/
theorem checkAxioms_agrees_with_prove (s : Session) (source : Source) :
    ∃ proved, s.verifier.prove source = some proved ∧
      ((∃ checked, s.checkAxioms source = some checked ∧ checked.result = .success) ↔
        ∃ p announced, proved.result = .ok (.verified p) ∧
          s.verifier.proofProcedure.Announces s.settings.reading .start source announced ∧
            ∀ event ∈ announced, event.isAxiomStep = true) ∧
      (∀ checked, s.checkAxioms source = some checked → checked.result = .success →
        ∃ axioms, BothFind s source axioms checked proved) ∧
      ∀ before number error, (∀ event ∈ before, event.isAxiom = true) →
        s.axiomProcedure.AnnouncesUpToLine s.settings.reading ({}, .success) source
          (before ++ [.rejected number error]) →
            proved.result = .error ⟨number, number, .line error⟩ := by
  obtain ⟨ending, hends, hprove⟩ := exists_prove s.verifier source
  refine ⟨_, hprove, ⟨?_, ?_⟩, ?_, ?_⟩
  · rintro ⟨checked, hcheck, hsuccess⟩
    obtain ⟨ending', hends', rfl⟩ := Procedure.exists_ends_of_conclude hcheck
    obtain ⟨axioms, rest, haxioms, hend⟩ := exists_axiomLines_of_success hends' hsuccess
    have hproof := proof_ends_of_axiomLines haxioms hend
    obtain rfl := hends.unique hproof
    refine ⟨_, _, rfl, ⟨_, _, hproof⟩, ?_⟩
    intro event hevent
    obtain ⟨i, hi, rfl⟩ := List.mem_mapIdx.1 hevent
    rfl
  · rintro ⟨p, announced, hverified, ⟨result, rest', hends'⟩, hall⟩
    obtain rfl := hends.unique hends'
    obtain ⟨axioms, rest, haxioms, hend⟩ := exists_axiomLines_of_verified hends hverified hall
    exact exists_checked_of_axiomLines haxioms hend
  · intro checked hcheck hsuccess
    obtain ⟨ending', hends', rfl⟩ := Procedure.exists_ends_of_conclude hcheck
    obtain ⟨axioms, rest, haxioms, hend⟩ := exists_axiomLines_of_success hends' hsuccess
    have hproof := proof_ends_of_axiomLines haxioms hend
    have hchecking := check_ends_of_axiomLines haxioms hend
    obtain rfl := hends.unique hproof
    obtain rfl := hends'.unique hchecking
    exact ⟨axioms, ⟨_, _, hchecking⟩, ⟨_, _, hproof⟩, rfl, rfl, rfl, rfl, rfl⟩
  · intro before number error hbefore hannounced
    obtain ⟨axioms, rest, haxioms, hline, rfl⟩ := exists_axiomLines_of_rejected hbefore hannounced
    exact proof_fails_of_axiomLines haxioms hline hends

end Session

end PropositionalCalculus
