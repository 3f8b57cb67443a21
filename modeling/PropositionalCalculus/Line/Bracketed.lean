import PropositionalCalculus.Formula.Operation
import PropositionalCalculus.Line.Automaton

/-!
# Lines with connectives between bracketed operands

A stack of levels has one entry for each open bracket and for each negation that waits for its operand;
a second stack holds the operands read so far. A bracket goes from `blank` over `first` and `operator`
to `last`, and then it may be closed: its connective takes the two topmost operands, and the formula
they form passes through the negations in front of the bracket.
-/

set_option autoImplicit false

namespace PropositionalCalculus.Line.Bracketed

/-- An open bracket, or a negation that waits for its operand. -/
inductive Level where
  /-- A negation without its operand. -/
  | negation (operation : Operation)
  /-- An open bracket. -/
  | blank
  /-- A bracket with its first operand. -/
  | first
  /-- A bracket with its first operand and its connective. -/
  | operator (operation : Operation)
  /-- A bracket with both operands. -/
  | last (operation : Operation)

namespace Level

/-- The level after an operand has been given to it. -/
def advance : Level → Level
  | blank => first
  | operator operation => last operation
  | negation operation => negation operation
  | first => first
  | last operation => last operation

/-- Whether an operand may begin here. -/
def awaitsOperand : Level → Bool
  | negation _ => true
  | blank => true
  | operator _ => true
  | first => false
  | last _ => false

end Level

/-- What has been read of the line. -/
structure State where
  /-- The open levels, the innermost first. -/
  levels : List Level
  /-- The operands read so far, the last one first. -/
  operands : List Formula

/-- Nothing has been read yet. -/
def State.isFresh (s : State) : Bool :=
  s.levels.isEmpty && s.operands.isEmpty

/-- Puts the formula through the negations that wait for it, then makes it an operand of the bracket
around them, if there is one. -/
def settle : List Level → List Formula → Formula → Except Halt State
  | .negation operation :: levels, operands, f =>
      match operation.fillLeading f with
      | .complete g => settle levels operands g
      -- A negation has one operand only.
      | .vacant _ => .error .incomplete
  | level :: levels, operands, f => .ok ⟨level.advance :: levels, f :: operands⟩
  | [], operands, f => .ok ⟨[], f :: operands⟩

/-- Opens a level where an operand may begin. -/
def openLevel (s : State) (level : Level) : Except Halt State :=
  match s.levels with
  | [] => if s.isFresh then .ok { s with levels := [level] } else .error (.refused .redundant)
  | top :: rest =>
      if top.awaitsOperand then .ok { s with levels := level :: top :: rest }
      else .error (.refused .unexpected)

/-- The state after one more token. -/
def accept (s : State) : Token → Except Halt State
  | .letter c =>
      match s.levels with
      | [] =>
          if s.isFresh then .ok { s with operands := .letter c :: s.operands }
          else .error (.refused .unexpected)
      | top :: _ =>
          if top.awaitsOperand then settle s.levels s.operands (.letter c)
          else .error (.refused .unexpected)
  | .negation => openLevel s (.negation .negation)
  | .connective op =>
      match s.levels with
      | [] => .error (.refused (if s.isFresh then .unexpected else .redundant))
      | .first :: rest => .ok { s with levels := .operator (.connective op) :: rest }
      | _ :: _ => .error (.refused .unexpected)
  | .opening => openLevel s .blank
  | .closing =>
      match s.levels with
      | [] => .error (.refused .redundant)
      | .last operation :: rest =>
          match operation.saturate s.operands with
          | (some f, operands) => settle rest operands f
          -- A level with both operands has put them on the stack.
          | (none, _) => .error .incomplete
      | _ :: _ => .error (.refused .unexpected)
  | .foreign _ => .error (.refused .illegal)

/-- A line may end when every level is closed. -/
def finish (s : State) : Option (Option Formula) :=
  if s.levels.isEmpty then some s.operands.head? else none

/-- The reader of lines with connectives between bracketed operands. -/
def automaton : Automaton State where
  start := ⟨[], []⟩
  accept := accept
  finish := finish

end PropositionalCalculus.Line.Bracketed
