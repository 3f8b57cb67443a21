import PropositionalCalculus.Schema
import PropositionalCalculus.ProofSystem

/-!
# A Hilbert system

Twelve schemas for the classical propositional calculus, with modus ponens as the only rule.
-/

set_option autoImplicit false

namespace PropositionalCalculus.Hilbert

/-- Letter `A` of the schemas. -/
def a : Formula := .letter 'A'

/-- Letter `B` of the schemas. -/
def b : Formula := .letter 'B'

/-- Letter `C` of the schemas. -/
def c : Formula := .letter 'C'

/-- The implication from one formula to another. -/
def imp (f g : Formula) : Formula := .compound .implication f g

/-- The conjunction of two formulas. -/
def conj (f g : Formula) : Formula := .compound .conjunction f g

/-- The disjunction of two formulas. -/
def disj (f g : Formula) : Formula := .compound .disjunction f g

/-- The equivalence of two formulas. -/
def equ (f g : Formula) : Formula := .compound .equivalence f g

/-- The schemas, in the order in which they are tried. -/
def schemas : List Schema :=
  [⟨imp a (imp b a)⟩,
   ⟨imp (imp a (imp b c)) (imp (imp a b) (imp a c))⟩,
   ⟨imp (imp (.negation a) (.negation b)) (imp b a)⟩,
   ⟨imp (conj a b) a⟩,
   ⟨imp (conj a b) b⟩,
   ⟨imp a (imp b (conj a b))⟩,
   ⟨imp a (disj a b)⟩,
   ⟨imp b (disj a b)⟩,
   ⟨imp (imp a c) (imp (imp b c) (imp (disj a b) c))⟩,
   ⟨imp (equ a b) (imp a b)⟩,
   ⟨imp (equ a b) (imp b a)⟩,
   ⟨imp (imp a b) (imp (imp b a) (equ a b))⟩]

/-- The number, from one, of the first schema of which the formula is an instance. -/
def axiomType? (f : Formula) : Option Nat :=
  (schemas.findIdx? (fun s => s.admits f)).map (· + 1)

/-- The number of the first member that is the antecedent of an implication to `f`, when `g` is such an
implication. -/
def antecedent? (f : Formula) (formulas : List Formula) (g : Formula) : Option Nat :=
  match g with
  | .compound .implication antecedent consequent =>
      if consequent == f then (formulas.findIdx? (· == antecedent)).map (· + 1) else none
  | _ => none

/-- Looks for the first implication to `f` whose antecedent is among `formulas`, where the numbers of
the implications begin at `index`. -/
def modusPonens? (f : Formula) (formulas : List Formula) : List Formula → Nat → Option (Nat × Nat)
  | [], _ => none
  | g :: rest, index =>
      match antecedent? f formulas g with
      | some i => some (i, index)
      | none => modusPonens? f formulas rest (index + 1)

/-- The members from which modus ponens gives the formula: the antecedent, then the implication. The
first implication that has its antecedent in the proof counts. -/
def witnesses (f : Formula) (p : Proof) : List Nat :=
  match modusPonens? f p.formulas p.formulas 1 with
  | some (i, j) => [i, j]
  | none => []

/-- The Hilbert system. -/
def system : ProofSystem where
  axiomType? := axiomType?
  witnesses := witnesses

end PropositionalCalculus.Hilbert
