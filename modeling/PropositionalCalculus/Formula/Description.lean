import PropositionalCalculus.Formula.Text
import PropositionalCalculus.Text.Quoted

/-!
# Describing formulas

The form in which a formula is shown inside other values: its name as a kind of value, with its
bracketed text in quotes.
-/

set_option autoImplicit false

namespace PropositionalCalculus.Formula

/-- The formula as a named value. -/
def description (f : Formula) : String :=
  "Formula(" ++ Text.quoted (f.text .bracketed) ++ ")"

end PropositionalCalculus.Formula
