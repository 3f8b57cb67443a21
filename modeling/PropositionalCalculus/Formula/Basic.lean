import PropositionalCalculus.Connective

/-!
# Formulas

A formula is a single letter, the negation of a formula, or two formulas joined by a connective. A
letter may be any character; a formula is *plain* when its letters are all among `A` to `Z`, which
are the letters that a line of text can hold.
-/

set_option autoImplicit false

namespace PropositionalCalculus

/-- A propositional formula. -/
inductive Formula where
  | letter (c : Char)
  | negation (body : Formula)
  | compound (op : Connective) (left right : Formula)
deriving DecidableEq

namespace Formula

/-- Whether a character is one of the letters `A` to `Z`. -/
def isPlainLetter (c : Char) : Bool :=
  c.isUpper

/-- Every letter of the formula is among `A` to `Z`. -/
def Plain : Formula → Prop
  | letter c => isPlainLetter c = true
  | negation body => body.Plain
  | compound _ left right => left.Plain ∧ right.Plain

instance decidablePlain : (f : Formula) → Decidable f.Plain
  | letter c => inferInstanceAs (Decidable (isPlainLetter c = true))
  | negation body => decidablePlain body
  | compound _ left right =>
      let _ := decidablePlain left
      let _ := decidablePlain right
      inferInstanceAs (Decidable (left.Plain ∧ right.Plain))

/-- The number of letters and operators in the formula. -/
def size : Formula → Nat
  | letter _ => 1
  | negation body => body.size + 1
  | compound _ left right => left.size + right.size + 1

/-- The number of operators on the longest way from the formula down to one of its letters. -/
def height : Formula → Nat
  | letter _ => 0
  | negation body => body.height + 1
  | compound _ left right => max left.height right.height + 1

end Formula

end PropositionalCalculus
