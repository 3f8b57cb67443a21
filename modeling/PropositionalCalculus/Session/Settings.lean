import PropositionalCalculus.Notation
import PropositionalCalculus.Setting

/-!
# Settings of a session

What can be chosen before lines are read: the notation of the lines, whether a survey stops at its first
failure, how many lines are premises, and what becomes of a finished proof.
-/

set_option autoImplicit false

namespace PropositionalCalculus

/-- What becomes of a proof whose steps are all accepted. -/
inductive ProofMode where
  /-- The proof is only checked. -/
  | verify
  /-- The members that the last one needs are marked. -/
  | optimize
deriving DecidableEq

namespace ProofMode

/-- The name of the mode. -/
def name : ProofMode → String
  | verify => "verify"
  | optimize => "optimize"

/-- Position in the order of the modes. -/
def rank : ProofMode → Nat
  | verify => 0
  | optimize => 1

instance : Ord ProofMode := ⟨fun a b => compare a.rank b.rank⟩

/-- The mode of that name; one of them may be spelled in two ways. -/
def ofName? (text : String) : Option ProofMode :=
  if text = "verify" then some verify
  else if text = "optimize" ∨ text = "optimise" then some optimize
  else none

/-- What is said of a text that names no mode. -/
def unknownMessage (text : String) : String :=
  "unknown proof mode '" ++ text ++ "', expected verify or optimize"

end ProofMode

/-- The largest number that can be asked for. -/
def greatestNumber : Nat := UInt64.size - 1

/-- The settings that a session offers, with their bounds and their first values. -/
structure Settings.Catalogue where
  reading : Setting Notation := ⟨"notation", .polish, .reversePolish, .bracketed⟩
  strict : Setting Bool := ⟨"strict", false, true, false⟩
  premises : Setting Nat := ⟨"premises", 0, greatestNumber, 0⟩
  proofMode : Setting ProofMode := ⟨"proof_mode", .verify, .optimize, .verify⟩

/-- The settings as they are offered. -/
def Settings.catalogue : Settings.Catalogue := {}

/-- The choices for a session. -/
structure Settings where
  /-- The notation of the lines. -/
  reading : Notation := Settings.catalogue.reading.value
  /-- Whether a survey stops at its first failure. -/
  strict : Bool := Settings.catalogue.strict.value
  /-- How many formulas at the beginning are premises of a proof. -/
  premises : Nat := Settings.catalogue.premises.value
  /-- What becomes of a finished proof. -/
  proofMode : ProofMode := Settings.catalogue.proofMode.value

end PropositionalCalculus
