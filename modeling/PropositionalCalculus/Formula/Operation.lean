import PropositionalCalculus.Formula.Basic

/-!
# Operators with open operands

While a formula is read, an operator may be known before its operands are. An `Operation` is an
operator with at least one operand missing; filling an operand gives the formula or an operation with
fewer open operands. `Operation.saturate` takes the missing operands from a stack, the last one first.
-/

set_option autoImplicit false

namespace PropositionalCalculus

/-- An operator that still misses an operand. -/
inductive Operation where
  | negation
  | connective (op : Connective)
  | leftFilled (left : Formula) (op : Connective)
  | rightFilled (op : Connective) (right : Formula)

/-- What becomes of an operation when one operand is given. -/
inductive Filling where
  | complete (f : Formula)
  | vacant (operation : Operation)

namespace Operation

/-- The number of missing operands. -/
def vacancies : Operation → Nat
  | negation => 1
  | connective _ => 2
  | leftFilled _ _ => 1
  | rightFilled _ _ => 1

/-- Fills the leftmost open operand. -/
def fillLeading : Operation → Formula → Filling
  | negation, f => .complete (.negation f)
  | connective op, f => .vacant (leftFilled f op)
  | leftFilled left op, f => .complete (.compound op left f)
  | rightFilled op right, f => .complete (.compound op f right)

/-- Fills the rightmost open operand. -/
def fillTrailing : Operation → Formula → Filling
  | negation, f => .complete (.negation f)
  | connective op, f => .vacant (rightFilled op f)
  | leftFilled left op, f => .complete (.compound op left f)
  | rightFilled op right, f => .complete (.compound op f right)

/-- Takes operands from the head of the stack, filling from the right, until the formula is complete.
Gives no formula when the stack runs out first; the operands taken are gone in either case. -/
def saturate : Operation → List Formula → Option Formula × List Formula
  | _, [] => (none, [])
  | operation, f :: stack =>
      match operation.fillTrailing f with
      | .complete g => (some g, stack)
      | .vacant remaining => saturate remaining stack

end Operation

end PropositionalCalculus
