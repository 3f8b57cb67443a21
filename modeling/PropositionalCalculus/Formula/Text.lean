import PropositionalCalculus.Formula.Basic
import PropositionalCalculus.Notation

/-!
# Writing formulas

`Formula.symbols` says, by recursion on the formula, which characters stand for it in a notation.
`Formula.text` writes the same characters (`toList_text`), keeping the pieces that are still to be
written in a list, so that a deeply nested formula needs no deep recursion.
-/

set_option autoImplicit false

namespace PropositionalCalculus

namespace Formula

/-- The characters of a formula in a notation. -/
def symbols (n : Notation) : Formula → List Char
  | letter c => [c]
  | negation body =>
      match n with
      | .polish => Negation.sign :: body.symbols n
      | .bracketed => Negation.sign :: body.symbols n
      | .reversePolish => body.symbols n ++ [Negation.sign]
  | compound op left right =>
      match n with
      | .polish => op.sign :: (left.symbols n ++ right.symbols n)
      | .bracketed => '(' :: (left.symbols n ++ op.sign :: (right.symbols n ++ [')']))
      | .reversePolish => left.symbols n ++ (right.symbols n ++ [op.sign])

/-- A piece of text that is still to be written. -/
inductive Piece where
  | sign (c : Char)
  | text (f : Formula)

namespace Piece

/-- An upper bound on the number of steps that writing the piece takes. -/
def weight : Piece → Nat
  | sign _ => 1
  | text f => 5 * f.size

/-- The weights of pending pieces together. -/
def totalWeight : List Piece → Nat
  | [] => 0
  | p :: rest => p.weight + totalWeight rest

/-- Writes the pending pieces after `written`. -/
def write (n : Notation) : List Piece → String → String
  | [], written => written
  | sign c :: rest, written => write n rest (written.push c)
  | text (.letter c) :: rest, written => write n rest (written.push c)
  | text (.negation body) :: rest, written =>
      match n with
      | .polish => write n (sign Negation.sign :: text body :: rest) written
      | .bracketed => write n (sign Negation.sign :: text body :: rest) written
      | .reversePolish => write n (text body :: sign Negation.sign :: rest) written
  | text (.compound op left right) :: rest, written =>
      match n with
      | .polish => write n (sign op.sign :: text left :: text right :: rest) written
      | .bracketed =>
          write n (sign '(' :: text left :: sign op.sign :: text right :: sign ')' :: rest) written
      | .reversePolish => write n (text left :: text right :: sign op.sign :: rest) written
termination_by pending => totalWeight pending
decreasing_by all_goals simp [totalWeight, weight, size]; try omega

end Piece

/-- The formula written in a notation. -/
def text (n : Notation) (f : Formula) : String :=
  Piece.write n [.text f] ""

/-- The characters that a piece contributes. -/
def Piece.symbols (n : Notation) : Piece → List Char
  | sign c => [c]
  | text f => f.symbols n

theorem Piece.toList_write (n : Notation) (pending : List Piece) (written : String) :
    (write n pending written).toList = written.toList ++ pending.flatMap (Piece.symbols n) := by
  fun_induction write n pending written <;> simp_all [Piece.symbols, Formula.symbols]

/-- **The text of a formula is made of its symbols.** -/
theorem toList_text (n : Notation) (f : Formula) : (f.text n).toList = f.symbols n := by
  simp [text, Piece.toList_write, Piece.symbols]

end Formula

end PropositionalCalculus
