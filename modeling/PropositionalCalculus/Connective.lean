/-!
# Connectives and their signs

The language has one sign for negation and four connectives that join two formulas. Each is written
as a single character, and no two share one: `Connective.ofSign?` reads back exactly what
`Connective.sign` writes (`Connective.ofSign?_eq_some_iff`).
-/

set_option autoImplicit false

namespace PropositionalCalculus

/-- A connective that joins two formulas. -/
inductive Connective where
  | conjunction
  | disjunction
  | implication
  | equivalence
deriving DecidableEq

namespace Connective

/-- The character that stands for the connective. -/
def sign : Connective → Char
  | conjunction => '.'
  | disjunction => '+'
  | implication => '>'
  | equivalence => '='

/-- The English name of the connective. -/
def name : Connective → String
  | conjunction => "Conjunction"
  | disjunction => "Disjunction"
  | implication => "Implication"
  | equivalence => "Equivalence"

/-- The connective that a character stands for. -/
def ofSign? (c : Char) : Option Connective :=
  if c = '.' then some conjunction
  else if c = '+' then some disjunction
  else if c = '>' then some implication
  else if c = '=' then some equivalence
  else none

theorem ofSign?_sign (op : Connective) : ofSign? op.sign = some op := by
  cases op <;> decide

theorem ofSign?_eq_some_iff {c : Char} {op : Connective} : ofSign? c = some op ↔ c = op.sign := by
  constructor
  · intro h
    unfold ofSign? at h
    repeat' split at h
    all_goals cases h
    all_goals assumption
  · rintro rfl
    exact ofSign?_sign op

end Connective

namespace Negation

/-- The character that stands for negation. -/
def sign : Char := '-'

/-- The English name of negation. -/
def name : String := "Negation"

end Negation

end PropositionalCalculus
