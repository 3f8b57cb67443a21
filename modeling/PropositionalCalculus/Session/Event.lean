import PropositionalCalculus.Session.Report

/-!
# Events of a run

What a run announces while it goes on, and who wants to hear of it.
-/

set_option autoImplicit false

namespace PropositionalCalculus

/-- Something that a run announces. -/
inductive Event where
  /-- A line gave a formula. -/
  | formula (f : Formula)
  /-- A formula is an axiom of the given type, or none. -/
  | classified (f : Formula) (type : Option Nat)
  /-- A formula became the member of the proof with the given number. -/
  | step (index : Nat) (f : Formula) (justification : Justification)
  /-- The line with the given number gave no formula. -/
  | rejected (line : Nat) (error : LineError)
deriving DecidableEq

/-- The kinds of events that are listened to. -/
structure Audience where
  formulas : Bool := true
  classifications : Bool := true
  steps : Bool := true
  rejections : Bool := true

/-- Whether anyone listens to events of this kind. -/
def Audience.hears (a : Audience) : Event → Bool
  | .formula _ => a.formulas
  | .classified _ _ => a.classifications
  | .step _ _ _ => a.steps
  | .rejected _ _ => a.rejections

/-- Nobody listens. -/
def Audience.nobody : Audience := ⟨false, false, false, false⟩

end PropositionalCalculus
