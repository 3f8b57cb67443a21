import PropositionalCalculus.Formula.Operation
import PropositionalCalculus.Line.Automaton

/-!
# Lines with every operator before its operands

Operators wait on a stack for their operands. A letter fills the leftmost open operand of the topmost
operator; whenever that completes a formula, the formula fills the operator below. Once the stack is
empty the formula of the line is complete, and any further token is redundant.
-/

set_option autoImplicit false

namespace PropositionalCalculus.Line.Polish

/-- What has been read of the line. -/
structure State where
  /-- The operators that miss an operand, the last one first. -/
  pending : List Operation
  /-- The formula of the line, once it is complete. -/
  formula : Option Formula

/-- Gives an operand to the waiting operators. -/
def settle : List Operation → Formula → State
  | [], f => ⟨[], some f⟩
  | operation :: rest, f =>
      match operation.fillLeading f with
      | .complete g => settle rest g
      | .vacant remaining => ⟨remaining :: rest, none⟩

/-- Nothing may follow a complete formula. -/
def State.isComplete (s : State) : Bool :=
  s.pending.isEmpty && s.formula.isSome

/-- The state after one more token. -/
def accept (s : State) : Token → Except Halt State
  | .letter c =>
      if s.isComplete then .error (.refused .redundant) else .ok (settle s.pending (.letter c))
  | .negation =>
      if s.isComplete then .error (.refused .redundant)
      else .ok ⟨.negation :: s.pending, s.formula⟩
  | .connective op =>
      if s.isComplete then .error (.refused .redundant)
      else .ok ⟨.connective op :: s.pending, s.formula⟩
  | .opening | .closing | .foreign _ => .error (.refused .illegal)

/-- A line may end when no operator waits. -/
def finish (s : State) : Option (Option Formula) :=
  if s.pending.isEmpty then some s.formula else none

/-- The reader of lines with every operator before its operands. -/
def automaton : Automaton State where
  start := ⟨[], none⟩
  accept := accept
  finish := finish

end PropositionalCalculus.Line.Polish
