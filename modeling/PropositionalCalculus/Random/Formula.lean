import PropositionalCalculus.Formula.Basic
import PropositionalCalculus.Random.Generator

/-!
# Random formulas

Formulas of a limited nesting with letters from `A` to `Z`. Above the limit one formula in four is a
letter, and the others begin with negation or one of the connectives, each as likely as the next.
-/

set_option autoImplicit false

namespace PropositionalCalculus

/-- The connectives in order. -/
def Connective.ofFin : Fin 4 → Connective
  | 0 => conjunction
  | 1 => disjunction
  | 2 => implication
  | 3 => equivalence

namespace Generator

/-- Draws a letter from `A` to `Z`. -/
def letter (g : Generator) : Char × Generator :=
  let drawn := g.below 26 (by decide)
  (Char.ofNat ('A'.toNat + drawn.1.val), drawn.2)

/-- Draws a formula whose nesting is at most the given number. -/
def formula : Nat → Generator → Formula × Generator
  | 0, g => (.letter g.letter.1, g.letter.2)
  | depth + 1, g =>
      if g.quarter.1 then (.letter g.quarter.2.letter.1, g.quarter.2.letter.2)
      else
        let drawn := g.quarter.2.below 5 (by decide)
        if negation : drawn.1 = 0 then
          let body := formula depth drawn.2
          (.negation body.1, body.2)
        else
          let left := formula depth drawn.2
          let right := formula depth left.2
          (.compound (Connective.ofFin (drawn.1.pred negation)) left.1 right.1, right.2)

end Generator

end PropositionalCalculus
