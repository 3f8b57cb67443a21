import PropositionalCalculus.Formula.Traversal
import PropositionalCalculus.Formula.Description

/-!
# Schemas

A schema is a pattern whose letters stand for formulas. A formula matches when it has the shape of the
pattern and every letter of the pattern stands for the same formula wherever it occurs. Only the letters
`A` to `Z` can stand for formulas, so a pattern with another letter matches nothing.
-/

set_option autoImplicit false

namespace PropositionalCalculus

/-- Formulas found for the letters of a pattern. -/
abbrev Bindings := List (Char × Formula)

/-- Lets the letter stand for the formula, unless it already stands for another one. -/
def Bindings.bind? (bindings : Bindings) (c : Char) (f : Formula) : Option Bindings :=
  match bindings.lookup c with
  | some g => if g == f then some bindings else none
  | none => some ((c, f) :: bindings)

/-- Extends the bindings so that the pattern becomes the formula. -/
def Formula.match? : Formula → Formula → Bindings → Option Bindings
  | .letter c, f, bindings => if isPlainLetter c then bindings.bind? c f else none
  | .negation pattern, .negation f, bindings => match? pattern f bindings
  | .compound op left right, .compound op' left' right', bindings =>
      -- What the left side binds is binding for the right side.
      if op = op' then (match? left left' bindings).bind (match? right right') else none
  | _, _, _ => none

/-- A pattern that stands for all its instances. -/
structure Schema where
  pattern : Formula

namespace Schema

/-- Whether the formula is an instance of the schema. -/
def admits (s : Schema) (f : Formula) : Bool :=
  (s.pattern.match? f []).isSome

/-- The schema as a named value. -/
def description (s : Schema) : String :=
  "Schema \x7b pattern: " ++ s.pattern.description ++ " \x7d"

end Schema

end PropositionalCalculus
