import PropositionalCalculus.Formula.Basic

/-!
# The characters of a line

A byte stands for the character with its code. Spaces and tabs count for nothing, a line feed ends the
line, and every other byte is a token, though most bytes are tokens that no notation knows.
-/

set_option autoImplicit false

namespace PropositionalCalculus.Line

/-- What a character means to the reader of a line. -/
inductive Token where
  | letter (c : Char)
  | negation
  | connective (op : Connective)
  | opening
  | closing
  | foreign (c : Char)
deriving DecidableEq

namespace Token

/-- The token that a character is. -/
def ofChar (c : Char) : Token :=
  if Formula.isPlainLetter c then letter c
  else if c = Negation.sign then negation
  else if c = '(' then opening
  else if c = ')' then closing
  else match Connective.ofSign? c with
    | some op => connective op
    | none => foreign c

/-- The character of a token. -/
def char : Token → Char
  | letter c => c
  | negation => Negation.sign
  | connective op => op.sign
  | opening => '('
  | closing => ')'
  | foreign c => c

/-- **A token is written with the character it was read from.** -/
theorem char_ofChar (c : Char) : (ofChar c).char = c := by
  unfold ofChar
  repeat' split
  all_goals first
    | rfl
    | (symm; assumption)
    | exact (Connective.ofSign?_eq_some_iff.1 (by assumption)).symm

end Token

/-- What a byte means to the reader of a line. -/
inductive Mark where
  | blank
  | lineEnd
  | token (t : Token)
deriving DecidableEq

/-- The meaning of a byte. -/
def Mark.ofByte (b : UInt8) : Mark :=
  if b = 0x20 ∨ b = 0x09 then blank
  else if b = 0x0A then lineEnd
  else token (Token.ofChar (Char.ofUInt8 b))

end PropositionalCalculus.Line
