import PropositionalCalculus.Formula.Valuation
import PropositionalCalculus.Proofs.Hilbert.Acceptance
import PropositionalCalculus.Proofs.Hilbert.Derivability
import PropositionalCalculus.Proofs.Session.Proving

/-!
# Completeness of the Hilbert system

What is true under every valuation that makes the premises true has a proof that is accepted
(`Session.prove_complete`). Under one valuation, a formula or its negation can be derived from the letters, each
with or without a negation in front (`Derivable.signed_truth`, by induction on the formula). The letters are then
dropped one by one, since what follows from a letter and from its negation holds (`Derivable.of_literals`). The
derivation is written line by line (`Derivable.exists_accepted`), and a letter that a line of text cannot hold is
replaced by one that it can hold.
-/

set_option autoImplicit false

namespace PropositionalCalculus

namespace Formula

/-- The letters of the formula, from left to right. -/
def letters : Formula → List Char
  | letter c => [c]
  | negation body => body.letters
  | compound _ left right => left.letters ++ right.letters

/-- The formula or its negation, whichever has the truth value `true` when the formula has the given one. -/
def signed : Bool → Formula → Formula
  | true, f => f
  | false, f => negation f

/-- The letters with the signs that the valuation gives them. -/
def literals (v : Char → Bool) (cs : List Char) : List Formula :=
  cs.map fun c => signed (v c) (letter c)

/-- **The consequence relation**: the formula is true under every valuation that makes the premises true. -/
def Entails (premises : List Formula) (f : Formula) : Prop :=
  ∀ v : Char → Bool, (∀ g ∈ premises, g.truth v = true) → f.truth v = true

/-- The letter itself, or `A` when no line can hold it. -/
def legibleLetter (c : Char) : Formula :=
  if isPlainLetter c then letter c else letter 'A'

theorem plain_legibleLetter (c : Char) : (legibleLetter c).Plain := by
  rw [legibleLetter]
  split
  · assumption
  · decide

theorem substitute_legibleLetter {f : Formula} (hf : f.Plain) : f.substitute legibleLetter = f := by
  apply substitute_of_plain ?_ hf
  intro c hc
  exact if_pos hc

end Formula

namespace Hilbert

open Formula

namespace Derivable

variable {Γ : List Formula} {f g : Formula}

/-! ## Truth tables -/

theorem signed_negation {x : Bool} (hf : Derivable Γ (signed x f)) :
    Derivable Γ (signed (!x) (.negation f)) := by
  cases x with
  | false => exact hf
  | true => exact refute hf.behind newest

theorem signed_imp {x y : Bool} (hf : Derivable Γ (signed x f)) (hg : Derivable Γ (signed y g)) :
    Derivable Γ (signed (!x || y) (imp f g)) := by
  cases x with
  | false => exact deduction (exfalso newest hf.behind)
  | true =>
      cases y with
      | true => exact deduction hg.behind
      | false => exact refute (modusPonens hf.behind newest) hg.behind

theorem signed_conj {x y : Bool} (hf : Derivable Γ (signed x f)) (hg : Derivable Γ (signed y g)) :
    Derivable Γ (signed (x && y) (conj f g)) := by
  cases x with
  | false => exact refute newest.conj_left hf.behind
  | true =>
      cases y with
      | true => exact conj_intro hf hg
      | false => exact refute newest.conj_right hg.behind

theorem signed_disj {x y : Bool} (hf : Derivable Γ (signed x f)) (hg : Derivable Γ (signed y g)) :
    Derivable Γ (signed (x || y) (disj f g)) := by
  cases x with
  | true => exact disj_left hf
  | false =>
      cases y with
      | true => exact disj_right hg
      | false =>
          have himp : Derivable Γ (imp g f) := deduction (exfalso newest hg.behind)
          exact refute (disj_elim newest (imp_self f) himp.behind) hf.behind

theorem signed_equ {x y : Bool} (hf : Derivable Γ (signed x f)) (hg : Derivable Γ (signed y g)) :
    Derivable Γ (signed (x == y) (equ f g)) := by
  -- An equivalence has the truth of the implications in both directions.
  have hforward := signed_imp hf hg
  have hbackward := signed_imp hg hf
  cases x <;> cases y
  · exact equ_intro hforward hbackward
  · exact refute newest.equ_backward hbackward.behind
  · exact refute newest.equ_forward hforward.behind
  · exact equ_intro hforward hbackward

theorem signed_compound {x y : Bool} (op : Connective) (hf : Derivable Γ (signed x f))
    (hg : Derivable Γ (signed y g)) : Derivable Γ (signed (op.truth x y) (.compound op f g)) := by
  cases op with
  | conjunction => exact signed_conj hf hg
  | disjunction => exact signed_disj hf hg
  | implication => exact signed_imp hf hg
  | equivalence => exact signed_equ hf hg

/-- **The letters decide the formula**: with their signs they give it, or its negation, as its truth value says. -/
theorem signed_truth {v : Char → Bool} (h : ∀ c ∈ f.letters, Derivable Γ (signed (v c) (.letter c))) :
    Derivable Γ (signed (f.truth v) f) := by
  induction f with
  | letter c => exact h c (List.mem_singleton.2 rfl)
  | negation body ih => exact signed_negation (ih h)
  | compound op left right ihl ihr =>
      apply signed_compound op
      · apply ihl
        intro c hc
        exact h c (List.mem_append_left _ hc)
      · apply ihr
        intro c hc
        exact h c (List.mem_append_right _ hc)

/-! ## Dropping the letters -/

/-- **What follows whatever the signs of the letters are holds without them.** -/
theorem of_literals (cs : List Char) (h : ∀ v, Derivable (literals v cs ++ Γ) f) : Derivable Γ f := by
  induction cs with
  | nil => exact h fun _ => true
  | cons c cs ih =>
      apply ih
      intro v
      by_cases hc : c ∈ cs
      · apply (h v).mono
        apply List.cons_subset.2
        exact ⟨List.mem_append_left _ (List.mem_map_of_mem hc), fun g hg => hg⟩
      · -- Giving this letter another value does not change the signs of the others.
        have hothers : ∀ x, literals (fun d => if d = c then x else v d) cs = literals v cs := by
          intro x
          apply List.map_congr_left
          intro d hd
          have hne : d ≠ c := ne_of_mem_of_not_mem hd hc
          simp only [if_neg hne]
        have hcase : ∀ x, Derivable (signed x (.letter c) :: (literals v cs ++ Γ)) f := by
          intro x
          have hx := h fun d => if d = c then x else v d
          rw [literals, List.map_cons, if_pos rfl, ← literals, hothers] at hx
          exact hx
        exact byCases (hcase true) (hcase false)

/-- **What the hypotheses entail can be derived from them.** -/
theorem of_entails (h : Entails Γ f) : Derivable Γ f := by
  apply of_literals (f.letters ++ Γ.flatMap letters)
  intro v
  have hletter : ∀ c ∈ f.letters ++ Γ.flatMap letters,
      Derivable (literals v (f.letters ++ Γ.flatMap letters) ++ Γ) (signed (v c) (.letter c)) := by
    intro c hc
    exact hypothesis (List.mem_append_left _ (List.mem_map_of_mem hc))
  by_cases htrue : ∀ g ∈ Γ, g.truth v = true
  · have hf := signed_truth (v := v) fun c hc => hletter c (List.mem_append_left _ hc)
    rwa [h v htrue] at hf
  · -- A false hypothesis is refuted by the letters.
    obtain ⟨g, hfalse⟩ := Classical.not_forall.1 htrue
    obtain ⟨hg, hfalse⟩ := Classical.not_imp.1 hfalse
    have hnot := signed_truth (f := g) (v := v) fun c hc =>
      hletter c (List.mem_append_right _ (List.mem_flatMap.2 ⟨g, hg, hc⟩))
    rw [eq_false_of_ne_true hfalse] at hnot
    exact exfalso (hypothesis (List.mem_append_right _ hg)) hnot

/-! ## Writing a derivation line by line -/

/-- **What can be derived is the last of some accepted steps.** -/
theorem exists_accepted (h : Derivable Γ f) :
    ∃ steps, Accepted Γ [] steps ∧ steps.getLast? = some f := by
  induction h with
  | schema hs σ => exact ⟨[_], ⟨Or.inl (exists_axiomType?_iff.2 ⟨_, hs, σ, rfl⟩), trivial⟩, rfl⟩
  | hypothesis hf => exact ⟨[_], ⟨Or.inr (Or.inl hf), trivial⟩, rfl⟩
  | @modusPonens x f _ _ ihx ihimp =>
      obtain ⟨minor, hminor, hx⟩ := ihx
      obtain ⟨major, hmajor, himp⟩ := ihimp
      have hboth : Accepted Γ [] (minor ++ major) := hminor.append (hmajor.mono (List.nil_subset _))
      have hfollows : Follows Γ (minor ++ major) f := by
        refine Or.inr (Or.inr ⟨x, ?_, ?_⟩)
        · exact List.mem_append_left _ (List.mem_of_getLast? hx)
        · exact List.mem_append_right _ (List.mem_of_getLast? himp)
      exact ⟨minor ++ major ++ [f], hboth.append ⟨hfollows, trivial⟩, List.getLast?_concat⟩

/-- The steps from plain premises to a plain formula can be plain. -/
theorem exists_accepted_plain (hpremises : ∀ g ∈ Γ, g.Plain) (hf : f.Plain) (h : Derivable Γ f) :
    ∃ steps, Accepted Γ [] steps ∧ steps.getLast? = some f ∧ ∀ g ∈ steps, g.Plain := by
  obtain ⟨steps, haccepted, hlast⟩ := h.exists_accepted
  have hsame : Γ.map (·.substitute legibleLetter) = Γ := by
    rw [List.map_congr_left fun g hg => substitute_legibleLetter (hpremises g hg), List.map_id']
  refine ⟨steps.map (·.substitute legibleLetter), ?_, ?_, ?_⟩
  · have hlegible := haccepted.substitute legibleLetter
    rwa [hsame, List.map_nil] at hlegible
  · rw [List.getLast?_map, hlast, Option.map_some, substitute_legibleLetter hf]
  · intro g hg
    obtain ⟨step, -, rfl⟩ := List.mem_map.1 hg
    exact plain_substitute plain_legibleLetter step

end Derivable

end Hilbert

/-- **Completeness**: when the premises entail a formula, some steps that end with it are accepted: written below
the premises, a run verifies them. -/
theorem Session.prove_complete {s : Session} (hs : s.system = Hilbert.system) {premises : List Formula}
    {f : Formula} (hpremises : ∀ g ∈ premises, g.Plain) (hf : f.Plain)
    (hcount : s.settings.premises = premises.length) (h : Formula.Entails premises f) :
    ∃ steps, steps.getLast? = some f ∧ ∃ run proof,
      (s.withMode .verify).prove
        (.ofBytes (Formula.lines s.settings.reading (premises ++ steps))) = some run ∧
      run.result = .ok (.verified proof) ∧ proof.formulas = steps := by
  obtain ⟨steps, haccepted, hlast, hsteps⟩ :=
    (Hilbert.Derivable.of_entails h).exists_accepted_plain hpremises hf
  obtain ⟨proof, hextend⟩ := (Hilbert.exists_extend?_iff (p := .empty)).2 haccepted
  rw [← hs] at hextend
  have hplain : ∀ g ∈ premises ++ steps, g.Plain := List.forall_mem_append.2 ⟨hpremises, hsteps⟩
  obtain ⟨run, hrun, hresult⟩ := exists_prove_of_lines (s := s.withMode .verify) hplain hcount hextend
  exact ⟨steps, hlast, run, proof, hrun, hresult, Proof.formulas_of_extend? hextend⟩

/-- From `¬A` and `A ∨ B` there is a proof of `B`. -/
theorem Session.prove_complete_disjunctive_syllogism :
    ∃ steps, steps.getLast? = some Hilbert.b ∧ ∃ run proof,
      (Session.withMode { system := Hilbert.system, settings := { reading := .bracketed, premises := 2 } }
        .verify).prove
        (.ofBytes (Formula.lines .bracketed
          ([.negation Hilbert.a, Hilbert.disj Hilbert.a Hilbert.b] ++ steps))) = some run ∧
      run.result = .ok (.verified proof) ∧ proof.formulas = steps := by
  refine Session.prove_complete
    (s := { system := Hilbert.system, settings := { reading := .bracketed, premises := 2 } })
    rfl (by decide) (by decide) rfl ?_
  intro v htrue
  have hnot := htrue (.negation Hilbert.a) (by simp)
  have hdisj := htrue (Hilbert.disj Hilbert.a Hilbert.b) (by simp)
  rw [Formula.truth, Bool.not_eq_true'] at hnot
  rwa [Hilbert.disj, Formula.truth, Connective.truth, hnot, Bool.false_or] at hdisj

end PropositionalCalculus
