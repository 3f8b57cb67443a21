import PropositionalCalculus.Formula.Basic

/-!
# Substitution

Every letter of a formula is replaced by the formula that the substitution gives for it.
-/

set_option autoImplicit false

namespace PropositionalCalculus.Formula

/-- Replaces every letter `c` by `σ c`. -/
def substitute (σ : Char → Formula) : Formula → Formula
  | letter c => σ c
  | negation body => negation (body.substitute σ)
  | compound op left right => compound op (left.substitute σ) (right.substitute σ)

/-- Replacing each letter by itself changes nothing. -/
theorem substitute_letter (f : Formula) : f.substitute letter = f := by
  induction f with
  | letter c => rfl
  | negation body ih => simp [substitute, ih]
  | compound op left right ihl ihr => simp [substitute, ihl, ihr]

/-- Two replacements, one after the other, are a single one. -/
theorem substitute_substitute (σ τ : Char → Formula) (f : Formula) :
    (f.substitute σ).substitute τ = f.substitute fun c => (σ c).substitute τ := by
  induction f with
  | letter c => rfl
  | negation body ih => simp [substitute, ih]
  | compound op left right ihl ihr => simp [substitute, ihl, ihr]

/-- Where only plain formulas are put in, the formula becomes plain. -/
theorem plain_substitute {σ : Char → Formula} (hσ : ∀ c, (σ c).Plain) (f : Formula) :
    (f.substitute σ).Plain := by
  induction f with
  | letter c => exact hσ c
  | negation body ih => exact ih
  | compound op left right ihl ihr => exact ⟨ihl, ihr⟩

/-- A replacement that leaves the letters `A` to `Z` alone does not change a plain formula. -/
theorem substitute_of_plain {σ : Char → Formula} (hσ : ∀ c, isPlainLetter c = true → σ c = letter c)
    {f : Formula} (hf : f.Plain) : f.substitute σ = f := by
  induction f with
  | letter c => exact hσ c hf
  | negation body ih => rw [substitute, ih hf]
  | compound op left right ihl ihr => rw [substitute, ihl hf.1, ihr hf.2]

end PropositionalCalculus.Formula
