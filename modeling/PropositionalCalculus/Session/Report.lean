import PropositionalCalculus.Line.Error
import PropositionalCalculus.Proof.Basic

/-!
# Reports

How a run ends: surveys say whether every line was accepted, and a proof run gives the proof or says
where and why it failed.
-/

set_option autoImplicit false

namespace PropositionalCalculus

/-- The outcome of a survey. -/
inductive Report where
  /-- Every line was accepted. -/
  | success
  /-- Some line was not. -/
  | failure
deriving DecidableEq

/-- The report in words. -/
def Report.message : Report → String
  | success => "Success"
  | failure => "Failure"

/-- Why a step of a proof is accepted. -/
inductive Justification where
  /-- It is an axiom of the given type. -/
  | axiomOfType (type : Nat)
  /-- It restates the premise with the given number. -/
  | premise (index : Nat)
  /-- It follows from the given members. -/
  | deduction (witnesses : List Nat)
deriving DecidableEq

/-- The numbers, each after a space. -/
def spacedNumbers (numbers : List Nat) : String :=
  numbers.foldl (fun written w => written ++ " " ++ w.repr) ""

/-- The justification in words. -/
def Justification.message : Justification → String
  | axiomOfType type => "Axiom of type " ++ type.repr ++ "."
  | premise index => "Premise of type " ++ index.repr ++ "."
  | deduction witnesses => "Deducible using formulas" ++ spacedNumbers witnesses ++ " as witnesses."

/-- The outcome of a proof run in which every line was accepted. -/
inductive ProofReport where
  /-- The proof is correct. -/
  | verified (proof : Proof)
  /-- The proof is correct, and the members that its last one needs are marked. -/
  | optimized (proof : Proof)
deriving DecidableEq

/-- The proof that a report is about. -/
def ProofReport.proof : ProofReport → Proof
  | verified proof => proof
  | optimized proof => proof

/-- Why a proof run failed: over a line or over the proof. -/
inductive RunError where
  | line (error : LineError)
  | proof (error : ProofError)
deriving DecidableEq

/-- The error in words. -/
def RunError.message : RunError → String
  | line error => error.message
  | proof error => error.message

/-- Where and why a proof run failed. -/
structure ProofFailure where
  /-- The number of the line, premises counted; zero when the failure concerns the proof as a whole. -/
  line : Nat
  /-- The number that the step would have had; zero when the failure concerns the proof as a whole. -/
  step : Nat
  error : RunError
deriving DecidableEq

/-- The failure in words. -/
def ProofFailure.message (failure : ProofFailure) : String :=
  if failure.line = 0 then failure.error.message
  else "Line " ++ failure.line.repr ++ ": " ++ failure.error.message

end PropositionalCalculus
