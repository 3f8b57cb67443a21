import PropositionalCalculus.Formula.Operation
import PropositionalCalculus.Line.Automaton

/-!
# Lines with every operator after its operands

Letters go on a stack of formulas. An operator takes its operands from the stack, the rightmost first,
and puts the formula they form in their place.
-/

set_option autoImplicit false

namespace PropositionalCalculus.Line.ReversePolish

/-- Applies an operator to the topmost formulas. It is redundant where it finds too few. -/
def apply (operands : List Formula) (operation : Operation) : Except Halt (List Formula) :=
  if (operands.take operation.vacancies).length < operation.vacancies then
    .error (.refused .redundant)
  else
    match operation.saturate operands with
    | (some f, rest) => .ok (f :: rest)
    -- There are as many formulas as vacancies.
    | (none, _) => .error .incomplete

/-- The formulas on the stack after one more token, the last one first. -/
def accept (operands : List Formula) : Token → Except Halt (List Formula)
  | .letter c => .ok (.letter c :: operands)
  | .negation => apply operands .negation
  | .connective op => apply operands (.connective op)
  | .opening | .closing | .foreign _ => .error (.refused .illegal)

/-- A line may end when at most one formula is left. -/
def finish : List Formula → Option (Option Formula)
  | [] => some none
  | [f] => some (some f)
  | _ => none

/-- The reader of lines with every operator after its operands. -/
def automaton : Automaton (List Formula) where
  start := []
  accept := accept
  finish := finish

end PropositionalCalculus.Line.ReversePolish
