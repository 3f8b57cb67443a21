import PropositionalCalculus.Formula.Text
import PropositionalCalculus.Formula.Traversal

/-!
# Traversals compute recursions

Formulas are written, measured, compared and copied with a stack of what is still to be done. Each of the four gives
what the recursion on the formula gives (`Formula.traversals_compute_recursions`).

For a copy, the parts that are built are on a second stack, and every operator takes its operands from there.
`Formula.copyFrom?` is the same traversal without anything that stands in for a missing operand. Entering a formula
comes to putting it on the stack of what is built, whatever is still to be done (`Formula.copyFrom?_enter`), so that no
operand is ever missing.
-/

set_option autoImplicit false

namespace PropositionalCalculus

namespace Formula

/-- The parts that are built after the pending visits; there are none as soon as an operator misses an operand. -/
def copyFrom? : List Visit → List Formula → Option (List Formula)
  | [], built => some built
  | .enter (letter c) :: rest, built => copyFrom? rest (letter c :: built)
  | .enter (negation body) :: rest, built => copyFrom? (.enter body :: .leave (negation body) :: rest) built
  | .enter (compound op left right) :: rest, built =>
      copyFrom? (.enter left :: .enter right :: .leave (compound op left right) :: rest) built
  | .leave (letter c) :: rest, built => copyFrom? rest (letter c :: built)
  | .leave (negation _) :: rest, body :: built => copyFrom? rest (negation body :: built)
  | .leave (compound op _ _) :: rest, right :: left :: built => copyFrom? rest (compound op left right :: built)
  | .leave _ :: _, _ => none
termination_by pending => Visit.totalWeight pending
decreasing_by all_goals simp [Visit.totalWeight, Visit.weight, size]; try omega

/-- A copy of the formula, if no operand is missing on the way and there is one in the end. -/
def duplicate? (f : Formula) : Option Formula :=
  (copyFrom? [.enter f] []).bind List.head?

/-- **Entering a formula comes to putting it on the stack of what is built**, whatever is pending. -/
theorem copyFrom?_enter (f : Formula) (rest : List Visit) (built : List Formula) :
    copyFrom? (.enter f :: rest) built = copyFrom? rest (f :: built) := by
  induction f generalizing rest built with
  | letter c => rw [copyFrom?]
  | negation body ih => rw [copyFrom?, ih, copyFrom?]
  | compound op left right ihl ihr => rw [copyFrom?, ihl, ihr, copyFrom?]

/-- Where no operand is missing, nothing has to stand in for one. -/
theorem copyFrom_of_copyFrom? (spare : Formula) {pending : List Visit} {built parts : List Formula}
    (h : copyFrom? pending built = some parts) : copyFrom spare pending built = parts := by
  fun_induction copyFrom? pending built <;> simp_all [copyFrom]

/-- **A copy is made without anything missing.** -/
theorem duplicate?_eq (f : Formula) : f.duplicate? = some f := by
  rw [duplicate?, copyFrom?_enter, copyFrom?]
  rfl

/-- **A copy is the formula**, whatever might have stood in for its parts. -/
theorem duplicateWith_eq (spare f : Formula) : duplicateWith spare f = f := by
  have hparts : copyFrom? [.enter f] [] = some [f] := by rw [copyFrom?_enter, copyFrom?]
  rw [duplicateWith, copyFrom_of_copyFrom? spare hparts]
  rfl

/-- **The traversals compute the recursions.** A formula is written as its symbols in every notation, its depth is its
height, and formulas are equal for `==` when they are the same tree. A copy is the same tree again; nothing is missing
while it is made, and what might have stood in for a part does not matter. -/
theorem traversals_compute_recursions (f : Formula) :
    (∀ n, f.text n = String.ofList (f.symbols n)) ∧
      f.depth = f.height ∧
      (∀ g, (f == g) = true ↔ f = g) ∧
      f.duplicate = f ∧
      f.duplicate? = some f ∧
      ∀ spare, duplicateWith spare f = f := by
  refine ⟨?_, depth_eq_height f, ?_, ?_, duplicate?_eq f, ?_⟩
  · intro n
    rw [← toList_text, String.ofList_toList]
  · intro g
    exact same_iff
  · exact duplicateWith_eq (letter 'A') f
  · intro spare
    exact duplicateWith_eq spare f

end Formula

end PropositionalCalculus
