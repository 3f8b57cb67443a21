import PropositionalCalculus.Formula.Traversal

/-!
# Proofs

A proof is a list of members, numbered from one. A member is a formula with the numbers of the members
that it was deduced from, its witnesses, and a mark that says whether it is to be kept.
`Proof.push?` accepts a member only when all its witnesses are members already.
-/

set_option autoImplicit false

namespace PropositionalCalculus

/-- A step of a proof. -/
structure Member where
  formula : Formula
  /-- The numbers of the members from which the formula was deduced. -/
  witnesses : List Nat
  /-- Whether the member is marked to be kept. -/
  kept : Bool
deriving DecidableEq

/-- The steps of a proof in order. -/
structure Proof where
  members : List Member
deriving DecidableEq

/-- What can be wrong with a proof or with a step of one. -/
inductive ProofError where
  /-- The formula is an instance of no schema. -/
  | notAnAxiom
  /-- The formula is no instance of a schema, no premise, and not deducible. -/
  | notDeducible
  /-- Every member is needed. -/
  | alreadyOptimal
  /-- A witness is not the number of a member. -/
  | unknownWitness (index : Nat)
deriving DecidableEq

/-- The error in words. -/
def ProofError.message : ProofError → String
  | notAnAxiom => "Not an axiom."
  | notDeducible => "Formula not deducible."
  | alreadyOptimal => "Proof already optimal."
  | unknownWitness index => "Unknown witness " ++ index.repr ++ "."

namespace Proof

/-- The proof without members. -/
def empty : Proof := ⟨[]⟩

/-- The number of members. -/
def length (p : Proof) : Nat := p.members.length

/-- Whether the proof has no members. -/
def isEmpty (p : Proof) : Bool := p.members.isEmpty

/-- The formulas of the members in order. -/
def formulas (p : Proof) : List Formula := p.members.map Member.formula

/-- The member with the given number. -/
def get? (p : Proof) : Nat → Option Member
  | 0 => none
  | offset + 1 => p.members[offset]?

/-- The formula of the member with the given number. -/
def formula? (p : Proof) (index : Nat) : Option Formula :=
  (p.get? index).map Member.formula

/-- Appends a member without a mark. The first witness that is not the number of a member is refused. -/
def push? (p : Proof) (f : Formula) (witnesses : List Nat) : Except ProofError Proof :=
  match witnesses.find? (fun w => w == 0 || p.length < w) with
  | some unknown => .error (.unknownWitness unknown)
  | none => .ok ⟨p.members ++ [⟨f, witnesses, false⟩]⟩

/-- The formulas of the marked members in order. -/
def keptFormulas (p : Proof) : List Formula :=
  (p.members.filter Member.kept).map Member.formula

/-- The number of marked members. -/
def keptCount (p : Proof) : Nat :=
  p.members.countP Member.kept

end Proof

end PropositionalCalculus
