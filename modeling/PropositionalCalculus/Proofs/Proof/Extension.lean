import PropositionalCalculus.Proofs.Proof.Basic
import PropositionalCalculus.Session.Proving

/-!
# Adding steps to a proof

`Proof.step?` takes a formula as the next step of a proof when the premises and the members before it justify
it, and `Proof.extend?` takes one formula after the other. What every step preserves holds of whatever steps
are added (`extend?_preserves`): the proof stays grounded, and its members stay justified by those before them.
-/

set_option autoImplicit false

namespace PropositionalCalculus

section Justification

variable {system : ProofSystem} {premises : List Formula} {p : Proof} {f : Formula}

theorem justify?_of_type {type : Nat} (h : system.axiomType? f = some type) :
    justify? system premises p f = some (.axiomOfType type) := by
  rw [justify?, h]

theorem justify?_of_premise {offset : Nat} (htype : system.axiomType? f = none)
    (h : premises.findIdx? (· == f) = some offset) :
    justify? system premises p f = some (.premise (offset + 1)) := by
  simp only [justify?, htype, h]

theorem justify?_of_witnesses (htype : system.axiomType? f = none)
    (hpremise : premises.findIdx? (· == f) = none) (h : system.witnesses f p ≠ []) :
    justify? system premises p f = some (.deduction (system.witnesses f p)) := by
  obtain ⟨first, others, hwitnesses⟩ := List.exists_cons_of_ne_nil h
  simp only [justify?, htype, hpremise, hwitnesses]

/-- **Why a formula is justified**: it is an axiom, or else a premise, or else the system has witnesses. -/
theorem justify?_cases {justification : Justification}
    (h : justify? system premises p f = some justification) :
    (∃ type, system.axiomType? f = some type ∧ justification = .axiomOfType type) ∨
      (system.axiomType? f = none ∧ ∃ offset, premises.findIdx? (· == f) = some offset ∧
        justification = .premise (offset + 1)) ∨
      (system.axiomType? f = none ∧ premises.findIdx? (· == f) = none ∧ system.witnesses f p ≠ [] ∧
        justification = .deduction (system.witnesses f p)) := by
  cases htype : system.axiomType? f with
  | some type =>
      rw [justify?_of_type htype] at h
      exact Or.inl ⟨type, rfl, (Option.some.inj h).symm⟩
  | none =>
      cases hpremise : premises.findIdx? (· == f) with
      | some offset =>
          rw [justify?_of_premise htype hpremise] at h
          exact Or.inr (Or.inl ⟨rfl, offset, rfl, (Option.some.inj h).symm⟩)
      | none =>
          by_cases hwitnesses : system.witnesses f p = []
          · simp only [justify?, htype, hpremise, hwitnesses] at h
            simp at h
          · rw [justify?_of_witnesses htype hpremise hwitnesses] at h
            exact Or.inr (Or.inr ⟨rfl, rfl, hwitnesses, (Option.some.inj h).symm⟩)

end Justification

namespace Proof

variable (system : ProofSystem) (premises : List Formula)

/-- The proof with one more step, or why the step is not accepted. -/
def step? (p : Proof) (f : Formula) : Except ProofError Proof :=
  match justify? system premises p f with
  | none => .error .notDeducible
  | some justification => p.push? f justification.witnesses

/-- The proof with the formulas as further steps, or why the first bad one is not accepted. -/
def extend? (p : Proof) (steps : List Formula) : Except ProofError Proof :=
  steps.foldlM (step? system premises) p

variable {system premises}

@[simp] theorem extend?_nil (p : Proof) : p.extend? system premises [] = .ok p := rfl

theorem extend?_cons_of_ok {p q : Proof} {f : Formula} (h : p.step? system premises f = .ok q)
    (steps : List Formula) : p.extend? system premises (f :: steps) = q.extend? system premises steps := by
  rw [extend?, List.foldlM_cons, h]
  rfl

theorem extend?_cons_of_error {p : Proof} {f : Formula} {error : ProofError}
    (h : p.step? system premises f = .error error) (steps : List Formula) :
    p.extend? system premises (f :: steps) = .error error := by
  rw [extend?, List.foldlM_cons, h]
  rfl

/-- Steps that are accepted are accepted one by one. -/
theorem extend?_cons_eq_ok {p r : Proof} {f : Formula} {steps : List Formula}
    (h : p.extend? system premises (f :: steps) = .ok r) :
    ∃ q, p.step? system premises f = .ok q ∧ q.extend? system premises steps = .ok r := by
  cases hstep : p.step? system premises f with
  | ok q => exact ⟨q, rfl, by rw [← extend?_cons_of_ok hstep, h]⟩
  | error error => simp [extend?_cons_of_error hstep] at h

/-- **What an accepted step is**: a member with the witnesses of its justification, which are members. -/
theorem step?_eq_ok_iff {p q : Proof} {f : Formula} :
    p.step? system premises f = .ok q ↔
      ∃ justification, justify? system premises p f = some justification ∧
        (∀ w ∈ justification.witnesses, 0 < w ∧ w ≤ p.length) ∧
          q = ⟨p.members ++ [⟨f, justification.witnesses, false⟩]⟩ := by
  rw [step?]
  cases hjust : justify? system premises p f with
  | none => simp
  | some justification =>
      constructor
      · intro h
        exact ⟨justification, rfl, push?_eq_ok_iff.1 h⟩
      · rintro ⟨justification', hsame, h⟩
        obtain rfl := Option.some.inj hsame
        exact push?_eq_ok_iff.2 h

/-- **What every step preserves, any number of steps preserves.** -/
theorem extend?_preserves {I : Proof → Prop} {p r : Proof} {steps : List Formula}
    (hstep : ∀ p q f, I p → p.step? system premises f = .ok q → I q) (hp : I p)
    (h : p.extend? system premises steps = .ok r) : I r := by
  induction steps generalizing p with
  | nil =>
      obtain rfl := Except.ok.inj h
      exact hp
  | cons f steps ih =>
      obtain ⟨q, hq, hr⟩ := extend?_cons_eq_ok h
      exact ih (hstep p q f hp hq) hr

/-- Steps that are accepted can be followed by one more. -/
theorem extend?_snoc {p q : Proof} {steps : List Formula} (h : p.extend? system premises steps = .ok q)
    (f : Formula) : p.extend? system premises (steps ++ [f]) = q.step? system premises f := by
  induction steps generalizing p with
  | nil =>
      obtain rfl := Except.ok.inj h
      rw [List.nil_append, extend?, List.foldlM_cons]
      exact bind_pure _
  | cons g steps ih =>
      obtain ⟨between, hg, hrest⟩ := extend?_cons_eq_ok h
      rw [List.cons_append, extend?_cons_of_ok hg]
      exact ih hrest

/-- Accepted steps are the formulas of the new members. -/
theorem formulas_of_extend? {p r : Proof} {steps : List Formula}
    (h : p.extend? system premises steps = .ok r) : r.formulas = p.formulas ++ steps := by
  induction steps generalizing p with
  | nil =>
      obtain rfl := Except.ok.inj h
      rw [List.append_nil]
  | cons f steps ih =>
      obtain ⟨q, hq, hr⟩ := extend?_cons_eq_ok h
      obtain ⟨justification, -, -, rfl⟩ := step?_eq_ok_iff.1 hq
      rw [ih hr, formulas, List.map_append, formulas, List.append_assoc]
      rfl

/-- **A proof made of accepted steps is grounded.** -/
theorem grounded_of_extend? {steps : List Formula} {p : Proof}
    (h : empty.extend? system premises steps = .ok p) : p.Grounded := by
  refine extend?_preserves ?_ grounded_empty h
  intro p q f hp hstep
  obtain ⟨justification, -, hpush⟩ := step?_eq_ok_iff.1 hstep
  exact hp.push (push?_eq_ok_iff.2 hpush)

/-- Every member is justified by those before it, and has the witnesses of the justification. -/
def Justified (system : ProofSystem) (premises : List Formula) (p : Proof) : Prop :=
  ∀ offset m, p.members[offset]? = some m →
    ∃ justification, justify? system premises ⟨p.members.take offset⟩ m.formula = some justification ∧
      m.witnesses = justification.witnesses

/-- **A proof made of accepted steps is justified.** -/
theorem justified_of_extend? {steps : List Formula} {p : Proof}
    (h : empty.extend? system premises steps = .ok p) : p.Justified system premises := by
  have hempty : empty.Justified system premises := by
    intro offset m hm
    simp [empty] at hm
  refine extend?_preserves ?_ hempty h
  intro p q f hp hstep
  obtain ⟨justification, hjust, -, rfl⟩ := step?_eq_ok_iff.1 hstep
  intro offset m hm
  rcases getElem?_snoc hm with hold | ⟨rfl, rfl⟩
  · -- Before an old member stands what stood there.
    have hle : offset ≤ p.members.length := Nat.le_of_lt (List.getElem?_eq_some_iff.1 hold).1
    rw [List.take_append_of_le_length hle]
    exact hp offset m hold
  · rw [List.take_left]
    exact ⟨justification, hjust, rfl⟩

end Proof

end PropositionalCalculus
