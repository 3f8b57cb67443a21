/-!
# Notations

The three ways of writing a formula on a line. They differ in where the sign of an operator stands:
before its operands, between them, or after them. `Notation.ofName?` reads the name of a notation in
any mixture of ASCII cases, and knows a second name for two of them.
-/

set_option autoImplicit false

namespace PropositionalCalculus

/-- A way of writing formulas. The order of the constructors is the order of the notations. -/
inductive Notation where
  /-- Every operator stands before its operands, and there are no brackets. -/
  | polish
  /-- A connective stands between its operands and the whole is bracketed. -/
  | bracketed
  /-- Every operator stands after its operands, and there are no brackets. -/
  | reversePolish
deriving DecidableEq

namespace Notation

/-- Where the sign of a connective stands. -/
def name : Notation → String
  | polish => "prefix"
  | bracketed => "infix"
  | reversePolish => "postfix"

/-- Position in the order of the notations. -/
def rank : Notation → Nat
  | polish => 0
  | bracketed => 1
  | reversePolish => 2

instance : Ord Notation := ⟨fun a b => compare a.rank b.rank⟩

/-- The notation of that name, whatever the case of its ASCII letters. -/
def ofName? (text : String) : Option Notation :=
  let lower := text.map Char.toLower
  if lower = "prefix" ∨ lower = "polish" then some polish
  else if lower = "infix" then some bracketed
  else if lower = "postfix" ∨ lower = "rpn" then some reversePolish
  else none

/-- What is said of a text that names no notation. -/
def unknownMessage (text : String) : String :=
  "unknown notation '" ++ text ++ "', expected prefix, infix, or postfix"

/-- Each notation is known by its own name. -/
theorem ofName?_name (n : Notation) : ofName? n.name = some n := by
  cases n <;> decide +kernel

end Notation

end PropositionalCalculus
