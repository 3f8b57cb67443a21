import PropositionalCalculus.Session.Basic

/-!
# Surveys

A survey looks at each line by itself. `Session.echo` announces the formulas that it reads, and
`Session.checkAxioms` says of each formula which type of axiom it is. A line that gives no formula is
announced and counted as a failure, and so is a formula that is found wanting; a strict survey stops
there. The result is `none` when the survey never ends.
-/

set_option autoImplicit false

namespace PropositionalCalculus

/-- What a survey finds about a formula. -/
structure Finding where
  event : Event
  /-- The counts with the finding. -/
  tally : Tally
  accepted : Bool

/-- How a survey goes on after a failure. -/
def Survey.afterFailure (strict : Bool) (t : Tally) : Turn (Tally × Report) (Tally × Report) :=
  if strict then .stop (t.countFailure, .failure) else .next (t.countFailure, .failure)

/-- The survey that inspects each formula in a given way. -/
def survey (strict : Bool) (inspect : Formula → Tally → Finding) :
    Procedure (Tally × Report) (Tally × Report) where
  onLine state
    | .ok f =>
        let finding := inspect f state.1.countLine
        ([finding.event],
          if finding.accepted then .next (finding.tally, state.2)
          else Survey.afterFailure strict finding.tally)
    | .error error =>
        ([.rejected state.1.countLine.lines error], Survey.afterFailure strict state.1.countLine)
  onEnd state := state

/-- Every formula is announced and accepted. -/
def inspectFormula (f : Formula) (t : Tally) : Finding :=
  ⟨.formula f, t, true⟩

/-- Only axioms are accepted. -/
def inspectAxiom (system : ProofSystem) (f : Formula) (t : Tally) : Finding :=
  match system.axiomType? f with
  | some type => ⟨.classified f (some type), t.countAxiom, true⟩
  | none => ⟨.classified f none, t, false⟩

namespace Session

/-- The procedure that announces each formula. -/
def echoProcedure (s : Session) : Procedure (Tally × Report) (Tally × Report) :=
  survey s.settings.strict inspectFormula

/-- The procedure that classifies each formula. -/
def axiomProcedure (s : Session) : Procedure (Tally × Report) (Tally × Report) :=
  survey s.settings.strict (inspectAxiom s.system)

/-- Announces the formula of each line. -/
def echo (s : Session) (source : Source) : Option (Run Report) :=
  (s.echoProcedure.run s.settings.reading ({}, .success) source).map s.conclude

/-- Announces of each line which type of axiom its formula is. -/
def checkAxioms (s : Session) (source : Source) : Option (Run Report) :=
  (s.axiomProcedure.run s.settings.reading ({}, .success) source).map s.conclude

end Session

end PropositionalCalculus
