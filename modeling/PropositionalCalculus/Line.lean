import PropositionalCalculus.Notation
import PropositionalCalculus.Line.Polish
import PropositionalCalculus.Line.Bracketed
import PropositionalCalculus.Line.ReversePolish

/-!
# Reading a line in a notation

`Notation.readLine` reads one line of a source. It gives no formula on a blank line and at the end of
the input.
-/

set_option autoImplicit false

namespace PropositionalCalculus

/-- Reads the next line of a source, with what is left of the source. -/
def Notation.readLine : Notation → Source → Line.Outcome × Source
  | polish => Line.Polish.automaton.readLine
  | bracketed => Line.Bracketed.automaton.readLine
  | reversePolish => Line.ReversePolish.automaton.readLine

end PropositionalCalculus
