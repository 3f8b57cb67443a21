import PropositionalCalculus.Proof.Pruning
import PropositionalCalculus.Session.Basic

/-!
# Proof runs

A proof run takes a number of premises and then checks step after step: a step must be an axiom, restate a
premise, or be deducible from the steps before it. The first line that breaks this ends the run.
-/

set_option autoImplicit false

namespace PropositionalCalculus

/-- Why the formula may be the next step of the proof, if it may. -/
def justify? (system : ProofSystem) (premises : List Formula) (proof : Proof) (f : Formula) :
    Option Justification :=
  match system.axiomType? f with
  | some type => some (.axiomOfType type)
  | none =>
      -- Of equal premises the first one counts.
      match premises.findIdx? (· == f) with
      | some offset => some (.premise (offset + 1))
      | none =>
          match system.witnesses f proof with
          | [] => none
          | first :: rest => some (.deduction (first :: rest))

/-- The members that a step names. -/
def Justification.witnesses : Justification → List Nat
  | axiomOfType _ => []
  | premise _ => []
  | deduction witnesses => witnesses

/-- The counts with one more step. -/
def Tally.countStep (t : Tally) : Justification → Tally
  | .axiomOfType _ => t.countAxiom
  | .premise _ => t.countRestatement
  | .deduction _ => t.countDeduction

namespace Proving

/-- What a proof run has read so far. -/
structure State where
  tally : Tally
  premises : List Formula
  proof : Proof

/-- The result of a proof run. -/
abbrev Result := Tally × Except ProofFailure ProofReport

/-- A failure on the latest line. -/
def State.fail (s : State) (error : RunError) : Result :=
  (s.tally.countFailure, .error ⟨s.tally.lines, s.proof.length + 1, error⟩)

/-- The state before the first line. -/
def State.start : State := ⟨{}, [], Proof.empty⟩

/-- Takes the formula as the next step of the proof, if it may be. -/
def takeStep (system : ProofSystem) (mode : ProofMode) (s : State) (f : Formula) :
    List Event × Turn State Result :=
  match justify? system s.premises s.proof f with
  | none => ([], .stop (s.fail (.proof .notDeducible)))
  | some justification =>
      -- A system may name witnesses that are no members.
      match s.proof.push? f justification.witnesses with
      | .error error => ([], .stop (s.fail (.proof error)))
      | .ok proof =>
          (match mode with
            | .verify => [.step proof.length f justification]
            | .optimize => [],
            .next { s with tally := s.tally.countStep justification, proof := proof })

/-- What is done with a formula: it is a premise as long as premises are missing, and a step after that. -/
def takeFormula (system : ProofSystem) (settings : Settings) (s : State) (f : Formula) :
    List Event × Turn State Result :=
  if s.premises.length < settings.premises then
    ([], .next { s with tally := s.tally.countPremise, premises := s.premises ++ [f] })
  else takeStep system settings.proofMode s f

/-- The result when all lines are read. -/
def finish (mode : ProofMode) (s : State) : Result :=
  match mode with
  | .verify => (s.tally, .ok (.verified s.proof))
  | .optimize =>
      match s.proof.optimize with
      | (.ok _, marked) => (s.tally, .ok (.optimized marked))
      | (.error error, _) => (s.tally.countFailure, .error ⟨0, 0, .proof error⟩)

end Proving

namespace Session

/-- The procedure that checks a proof. -/
def proofProcedure (s : Session) : Procedure Proving.State Proving.Result where
  onLine state
    | .ok f => Proving.takeFormula s.system s.settings { state with tally := state.tally.countLine } f
    | .error error =>
        let counted : Proving.State := { state with tally := state.tally.countLine }
        ([], .stop (counted.fail (.line error)))
  onEnd := Proving.finish s.settings.proofMode

/-- Checks the proof that a source holds. -/
def prove (s : Session) (source : Source) : Option (Run (Except ProofFailure ProofReport)) :=
  (s.proofProcedure.run s.settings.reading .start source).map s.conclude

end Session

end PropositionalCalculus
