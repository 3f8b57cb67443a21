/-!
# Counting during a run

What a run has met so far.
-/

set_option autoImplicit false

namespace PropositionalCalculus

/-- The counts of a run. -/
structure Tally where
  /-- Lines that gave a formula or an error. -/
  lines : Nat := 0
  /-- Formulas taken as premises. -/
  premises : Nat := 0
  /-- Formulas recognised as axioms. -/
  axioms : Nat := 0
  /-- Steps that restate a premise. -/
  restatements : Nat := 0
  /-- Steps deduced from earlier ones. -/
  deductions : Nat := 0
  /-- Failures. -/
  failures : Nat := 0
deriving DecidableEq

namespace Tally

/-- One more line. -/
def countLine (t : Tally) : Tally := { t with lines := t.lines + 1 }

/-- One more premise. -/
def countPremise (t : Tally) : Tally := { t with premises := t.premises + 1 }

/-- One more axiom. -/
def countAxiom (t : Tally) : Tally := { t with axioms := t.axioms + 1 }

/-- One more restated premise. -/
def countRestatement (t : Tally) : Tally := { t with restatements := t.restatements + 1 }

/-- One more deduction. -/
def countDeduction (t : Tally) : Tally := { t with deductions := t.deductions + 1 }

/-- One more failure. -/
def countFailure (t : Tally) : Tally := { t with failures := t.failures + 1 }

end Tally

end PropositionalCalculus
