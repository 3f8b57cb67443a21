import PropositionalCalculus.Formula.Substitution

/-!
# Truth of formulas

The classical reading: a valuation gives each letter a truth value, and negation and the connectives
have their truth tables.
-/

set_option autoImplicit false

namespace PropositionalCalculus

/-- The truth table of a connective. -/
def Connective.truth : Connective → Bool → Bool → Bool
  | conjunction, a, b => a && b
  | disjunction, a, b => a || b
  | implication, a, b => !a || b
  | equivalence, a, b => a == b

namespace Formula

/-- The truth value of a formula when the letters have the given ones. -/
def truth (v : Char → Bool) : Formula → Bool
  | letter c => v c
  | negation body => !body.truth v
  | compound op left right => op.truth (left.truth v) (right.truth v)

/-- A formula is a tautology when it is true under every valuation. -/
def Tautology (f : Formula) : Prop :=
  ∀ v : Char → Bool, f.truth v = true

/-- The truth of an instance is the truth of the pattern when each letter has the truth value of what
is put in its place. -/
theorem truth_substitute (σ : Char → Formula) (v : Char → Bool) (f : Formula) :
    (f.substitute σ).truth v = f.truth (fun c => (σ c).truth v) := by
  induction f with
  | letter c => rfl
  | negation body ih => simp [substitute, truth, ih]
  | compound op left right ihl ihr => simp [substitute, truth, ihl, ihr]

end Formula

end PropositionalCalculus
