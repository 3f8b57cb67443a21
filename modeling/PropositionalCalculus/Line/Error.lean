import PropositionalCalculus.Source

/-!
# Why a line gives no formula

Three errors name a character of the line and its place; after them the rest of the line is of no
interest. The others concern the end of the line or the reading itself.
-/

set_option autoImplicit false

namespace PropositionalCalculus

namespace Line

/-- Why a character cannot stand where it does. -/
inductive Refusal where
  /-- The character is not used by the notation. -/
  | illegal
  /-- Something else should stand here. -/
  | unexpected
  /-- The formula was complete, or nothing is left for the character to belong to. -/
  | redundant
deriving DecidableEq

/-- The opening words of the message for a refused character. -/
def Refusal.heading : Refusal → String
  | illegal => "Illegal character"
  | unexpected => "Unexpected element"
  | redundant => "Redundant element"

end Line

/-- Why a line gives no formula. -/
inductive LineError where
  /-- A character is refused; its place counts from one, without blanks. -/
  | refused (why : Line.Refusal) (c : Char) (position : Nat)
  /-- The input ended in the middle of a line. -/
  | unexpectedEnd
  /-- The line ended in the middle of a formula. -/
  | incomplete
  /-- A read failed. -/
  | unreadable (fault : ReadFault)
deriving DecidableEq

namespace LineError

/-- Whether the error names a character of the line. -/
def isDetailed : LineError → Bool
  | refused _ _ _ => true
  | unexpectedEnd => false
  | incomplete => false
  | unreadable _ => false

/-- The error in words. -/
def message : LineError → String
  | refused why c position =>
      why.heading ++ " '" ++ c.toString ++ "' at position " ++ position.repr ++ "."
  | unexpectedEnd => "Unexpected end of input."
  | incomplete => "Incomplete formula."
  | unreadable fault => "Failed to read input: " ++ fault.message ++ "."

end LineError

end PropositionalCalculus
