import PropositionalCalculus.Proof.Basic

/-!
# Proof systems

A proof system says which formulas it takes without proof, and of what type, and from which members of a
proof a formula may be deduced.
-/

set_option autoImplicit false

namespace PropositionalCalculus

/-- What may stand in a proof. -/
structure ProofSystem where
  /-- The type of a formula that needs no proof. -/
  axiomType? : Formula → Option Nat
  /-- The numbers of the members from which the formula may be deduced; none when it may not. -/
  witnesses : Formula → Proof → List Nat

/-- A system given by tables, whatever the proof: the types of some formulas, the witnesses of others, and
the witnesses of all that are in neither table. The first entry for a formula counts. -/
def ProofSystem.ofTables (types : List (Formula × Nat)) (deductions : List (Formula × List Nat))
    (otherwise : List Nat) : ProofSystem where
  axiomType? f := types.lookup f
  witnesses f _ := (deductions.lookup f).getD otherwise

end PropositionalCalculus
