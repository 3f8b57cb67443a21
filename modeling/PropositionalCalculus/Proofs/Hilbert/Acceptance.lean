import PropositionalCalculus.Proofs.Hilbert.ModusPonens
import PropositionalCalculus.Proofs.Proof.Extension
import PropositionalCalculus.Proofs.Schema

/-!
# What the Hilbert system accepts

A step is accepted when it is an axiom, a premise, or the consequent of an implication that stands before it
together with its antecedent (`Follows`). Which axiom, premise or implication is found first does not matter to
this. So a list of steps is accepted exactly when each of them follows (`exists_extend?_iff`), accepted lists can
be put one behind the other (`Accepted.append`), and formulas can be put in the place of letters everywhere
(`Accepted.substitute`).
-/

set_option autoImplicit false

namespace PropositionalCalculus.Hilbert

/-- The formula is an axiom, a premise, or follows by modus ponens from formulas before. -/
def Follows (premises before : List Formula) (f : Formula) : Prop :=
  (∃ type, axiomType? f = some type) ∨ f ∈ premises ∨ ∃ x ∈ before, imp x f ∈ before

/-- Every step follows from the premises and what stands before it. -/
def Accepted (premises : List Formula) : List Formula → List Formula → Prop
  | _, [] => True
  | before, f :: steps => Follows premises before f ∧ Accepted premises (before ++ [f]) steps

variable {premises before before' steps steps' : List Formula} {f : Formula}

/-! ## Axioms -/

theorem plain_of_mem_schemas : ∀ s ∈ schemas, s.pattern.Plain := by
  decide

/-- **The axioms are the instances of the schemas.** -/
theorem exists_axiomType?_iff :
    (∃ type, axiomType? f = some type) ↔ ∃ s ∈ schemas, ∃ σ, s.pattern.substitute σ = f := by
  constructor
  · rintro ⟨type, h⟩
    obtain ⟨offset, hfound, -⟩ := Option.map_eq_some_iff.1 h
    obtain ⟨hlt, hadmits, -⟩ := List.findIdx?_eq_some_iff_getElem.1 hfound
    exact ⟨_, List.getElem_mem hlt, Schema.exists_substitute_of_admits hadmits⟩
  · rintro ⟨s, hs, σ, rfl⟩
    have hadmits := Schema.admits_substitute (plain_of_mem_schemas s hs) σ
    exact ⟨_, Option.map_eq_some_iff.2 ⟨_, List.findIdx?_eq_some_of_exists ⟨s, hs, hadmits⟩, rfl⟩⟩

/-! ## Steps behind other steps -/

/-- What follows still follows when there is more before. -/
theorem Follows.mono (h : Follows premises before f) (hsub : before ⊆ before') :
    Follows premises before' f := by
  rcases h with hschema | hpremise | ⟨x, hx, himp⟩
  · exact Or.inl hschema
  · exact Or.inr (Or.inl hpremise)
  · exact Or.inr (Or.inr ⟨x, hsub hx, hsub himp⟩)

theorem Accepted.mono (h : Accepted premises before steps) (hsub : before ⊆ before') :
    Accepted premises before' steps := by
  induction steps generalizing before before' with
  | nil => trivial
  | cons f steps ih =>
      obtain ⟨hf, hsteps⟩ := h
      refine ⟨hf.mono hsub, ih hsteps ?_⟩
      exact List.append_subset.2 ⟨fun g hg => List.mem_append_left _ (hsub hg), List.subset_append_right _ _⟩

/-- **Accepted steps may stand behind others.** -/
theorem Accepted.append (h : Accepted premises before steps)
    (h' : Accepted premises (before ++ steps) steps') : Accepted premises before (steps ++ steps') := by
  induction steps generalizing before with
  | nil => rwa [List.append_nil] at h'
  | cons f steps ih =>
      obtain ⟨hf, hsteps⟩ := h
      refine ⟨hf, ih hsteps ?_⟩
      rwa [List.append_assoc]

/-! ## Steps under a substitution -/

/-- What follows still follows when formulas are put in the place of letters. -/
theorem Follows.substitute (h : Follows premises before f) (σ : Char → Formula) :
    Follows (premises.map (·.substitute σ)) (before.map (·.substitute σ)) (f.substitute σ) := by
  rcases h with hschema | hpremise | ⟨x, hx, himp⟩
  · obtain ⟨s, hs, τ, rfl⟩ := exists_axiomType?_iff.1 hschema
    rw [Formula.substitute_substitute]
    exact Or.inl (exists_axiomType?_iff.2 ⟨s, hs, _, rfl⟩)
  · exact Or.inr (Or.inl (List.mem_map_of_mem hpremise))
  · exact Or.inr (Or.inr ⟨x.substitute σ, List.mem_map_of_mem hx, List.mem_map_of_mem himp⟩)

/-- **Accepted steps stay accepted when formulas are put in the place of letters.** -/
theorem Accepted.substitute (h : Accepted premises before steps) (σ : Char → Formula) :
    Accepted (premises.map (·.substitute σ)) (before.map (·.substitute σ))
      (steps.map (·.substitute σ)) := by
  induction steps generalizing before with
  | nil => trivial
  | cons f steps ih =>
      obtain ⟨hf, hsteps⟩ := h
      refine ⟨hf.substitute σ, ?_⟩
      have hrest := ih hsteps
      rwa [List.map_append] at hrest

/-! ## The checker -/

/-- A formula has a justification exactly when it follows. -/
theorem exists_justify?_iff {p : Proof} :
    (∃ justification, justify? system premises p f = some justification) ↔
      Follows premises p.formulas f := by
  constructor
  · rintro ⟨justification, h⟩
    obtain ⟨type, htype, -⟩ | ⟨-, offset, hfound, -⟩ | ⟨-, -, hwitnesses, -⟩ := justify?_cases h
    · exact Or.inl ⟨type, htype⟩
    · obtain ⟨hlt, hf, -⟩ := List.findIdx?_eq_some_iff_getElem.1 hfound
      exact Or.inr (Or.inl (List.mem_of_getElem (eq_of_beq hf)))
    · exact Or.inr (Or.inr (mem_of_witnesses_ne_nil hwitnesses))
  · intro h
    -- What is tried first may hold as well, and then it is the justification.
    cases htype : system.axiomType? f with
    | some type => exact ⟨_, justify?_of_type htype⟩
    | none =>
        cases hfound : premises.findIdx? (· == f) with
        | some offset => exact ⟨_, justify?_of_premise htype hfound⟩
        | none =>
            rcases h with ⟨type, hschema⟩ | hpremise | ⟨x, hx, himp⟩
            · exact absurd (hschema.symm.trans htype) (Option.some_ne_none type)
            · obtain ⟨offset, hoffset⟩ := findIdx?_of_mem hpremise
              exact absurd (hoffset.symm.trans hfound) (Option.some_ne_none offset)
            · obtain ⟨i, j, hwitnesses, -⟩ := exists_witnesses_eq hx himp
              have hsome : system.witnesses f p ≠ [] := by
                intro hnone
                exact List.cons_ne_nil _ _ (hwitnesses.symm.trans hnone)
              exact ⟨_, justify?_of_witnesses htype hfound hsome⟩

/-- The witnesses of a justification are members. -/
theorem witnesses_le_of_justify? {p : Proof} {justification : Justification}
    (h : justify? system premises p f = some justification) :
    ∀ w ∈ justification.witnesses, 0 < w ∧ w ≤ p.length := by
  obtain ⟨type, -, rfl⟩ | ⟨-, offset, -, rfl⟩ | ⟨-, -, -, rfl⟩ := justify?_cases h
  · exact fun w hw => absurd hw List.not_mem_nil
  · exact fun w hw => absurd hw List.not_mem_nil
  · exact fun w hw => le_of_mem_witnesses hw

/-- **A step is accepted exactly when it follows.** -/
theorem exists_step?_iff {p : Proof} :
    (∃ q, p.step? system premises f = .ok q) ↔ Follows premises p.formulas f := by
  rw [← exists_justify?_iff]
  constructor
  · rintro ⟨q, hq⟩
    obtain ⟨justification, hjust, -⟩ := Proof.step?_eq_ok_iff.1 hq
    exact ⟨justification, hjust⟩
  · rintro ⟨justification, hjust⟩
    exact ⟨_, Proof.step?_eq_ok_iff.2 ⟨justification, hjust, witnesses_le_of_justify? hjust, rfl⟩⟩

/-- An accepted step is the formula of the new member. -/
theorem formulas_of_step? {p q : Proof} (h : p.step? system premises f = .ok q) :
    q.formulas = p.formulas ++ [f] := by
  obtain ⟨justification, -, -, rfl⟩ := Proof.step?_eq_ok_iff.1 h
  rw [Proof.formulas, List.map_append]
  rfl

/-- **Steps are accepted exactly when each of them follows.** -/
theorem exists_extend?_iff {p : Proof} :
    (∃ q, p.extend? system premises steps = .ok q) ↔ Accepted premises p.formulas steps := by
  induction steps generalizing p with
  | nil => exact ⟨fun _ => trivial, fun _ => ⟨p, rfl⟩⟩
  | cons f steps ih =>
      constructor
      · rintro ⟨r, hr⟩
        obtain ⟨q, hq, hrest⟩ := Proof.extend?_cons_eq_ok hr
        refine ⟨exists_step?_iff.1 ⟨q, hq⟩, ?_⟩
        rw [← formulas_of_step? hq]
        exact ih.1 ⟨r, hrest⟩
      · rintro ⟨hf, hsteps⟩
        obtain ⟨q, hq⟩ := exists_step?_iff.2 hf
        rw [← formulas_of_step? hq] at hsteps
        obtain ⟨r, hr⟩ := ih.2 hsteps
        exact ⟨r, (Proof.extend?_cons_of_ok hq steps).trans hr⟩

end PropositionalCalculus.Hilbert
