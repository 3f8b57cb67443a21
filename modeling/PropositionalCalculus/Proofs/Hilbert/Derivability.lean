import PropositionalCalculus.Hilbert
import PropositionalCalculus.Formula.Substitution

/-!
# Derivability

What can be derived from hypotheses with the schemas and modus ponens, as an inductive relation: a tree of
deductions, not yet a list of steps. The deduction theorem (`Derivable.deduction`) needs the first two schemas only.
With it each of the other schemas becomes a rule of natural deduction, and the third one gives the classical
arguments: reduction to the absurd (`Derivable.byContradiction`, `Derivable.refute`) and the distinction of two
cases (`Derivable.byCases`).
-/

set_option autoImplicit false

namespace PropositionalCalculus.Hilbert

/-- The formula follows from the hypotheses by the schemas and modus ponens. -/
inductive Derivable (Γ : List Formula) : Formula → Prop
  | schema {s : Schema} (hs : s ∈ schemas) (σ : Char → Formula) : Derivable Γ (s.pattern.substitute σ)
  | hypothesis {f : Formula} (hf : f ∈ Γ) : Derivable Γ f
  | modusPonens {x f : Formula} (hx : Derivable Γ x) (himp : Derivable Γ (imp x f)) : Derivable Γ f

namespace Derivable

variable {Γ Δ : List Formula} {f g h : Formula}

/-- The substitution for the three letters of the schemas. -/
def assign (f g h : Formula) (letter : Char) : Formula :=
  if letter = 'A' then f else if letter = 'B' then g else h

/-! ## Implication -/

theorem weaken (f g : Formula) : Derivable Γ (imp f (imp g f)) :=
  schema (s := ⟨imp a (imp b a)⟩) (by simp [schemas]) (assign f g f)

theorem distribute (f g h : Formula) :
    Derivable Γ (imp (imp f (imp g h)) (imp (imp f g) (imp f h))) :=
  schema (s := ⟨imp (imp a (imp b c)) (imp (imp a b) (imp a c))⟩) (by simp [schemas]) (assign f g h)

theorem imp_self (f : Formula) : Derivable Γ (imp f f) := by
  have hwrapped : Derivable Γ (imp f (imp (imp f f) f)) := weaken f (imp f f)
  exact modusPonens (weaken f f) (modusPonens hwrapped (distribute f (imp f f) f))

/-- More hypotheses do no harm. -/
theorem mono (hf : Derivable Γ f) (hsub : Γ ⊆ Δ) : Derivable Δ f := by
  induction hf with
  | schema hs σ => exact schema hs σ
  | hypothesis hf => exact hypothesis (hsub hf)
  | modusPonens hx himp ihx ihimp => exact modusPonens ihx ihimp

theorem behind (hg : Derivable Γ g) : Derivable (f :: Γ) g :=
  hg.mono (List.subset_cons_self f Γ)

theorem newest : Derivable (f :: Γ) f :=
  hypothesis List.mem_cons_self

/-- **The deduction theorem**: a hypothesis can be made the antecedent. -/
theorem deduction (hg : Derivable (f :: Γ) g) : Derivable Γ (imp f g) := by
  induction hg with
  | schema hs σ => exact modusPonens (schema hs σ) (weaken _ f)
  | hypothesis hmem =>
      rcases List.mem_cons.1 hmem with rfl | hmem
      · exact imp_self _
      · exact modusPonens (hypothesis hmem) (weaken _ f)
  | modusPonens hx himp ihx ihimp => exact modusPonens ihx (modusPonens ihimp (distribute f _ _))

/-! ## Negation -/

theorem contrapose (himp : Derivable Γ (imp (.negation f) (.negation g))) : Derivable Γ (imp g f) := by
  apply modusPonens himp
  exact schema (s := ⟨imp (imp (.negation a) (.negation b)) (imp b a)⟩) (by simp [schemas]) (assign f g f)

/-- From a formula and its negation everything follows. -/
theorem exfalso (hf : Derivable Γ f) (hnot : Derivable Γ (.negation f)) : Derivable Γ g := by
  have himp : Derivable Γ (imp (.negation g) (.negation f)) := deduction hnot.behind
  exact modusPonens hf (contrapose himp)

/-- **Reduction to the absurd**: what cannot be false holds. -/
theorem byContradiction (hg : Derivable (.negation f :: Γ) g)
    (hnot : Derivable (.negation f :: Γ) (.negation g)) : Derivable Γ f := by
  -- Instead of a formula that is always false, the negation of one that can be derived.
  have himp : Derivable Γ (imp (.negation f) (.negation (imp f f))) := deduction (exfalso hg hnot)
  exact modusPonens (imp_self f) (contrapose himp)

theorem of_negation_negation (hf : Derivable Γ (.negation (.negation f))) : Derivable Γ f :=
  byContradiction newest hf.behind

/-- What leads to a contradiction is refuted. -/
theorem refute (hg : Derivable (f :: Γ) g) (hnot : Derivable (f :: Γ) (.negation g)) :
    Derivable Γ (.negation f) := by
  have hf : Derivable (.negation (.negation f) :: Γ) f := of_negation_negation newest
  apply byContradiction
  · exact modusPonens hf hg.deduction.behind
  · exact modusPonens hf hnot.deduction.behind

/-- **Two cases**: what follows from a formula and from its negation holds. -/
theorem byCases (hpos : Derivable (f :: Γ) g) (hneg : Derivable (.negation f :: Γ) g) : Derivable Γ g := by
  have hnot : Derivable (.negation g :: Γ) (.negation f) := by
    apply refute
    · exact modusPonens newest hpos.deduction.behind.behind
    · exact newest.behind
  apply byContradiction
  · exact modusPonens hnot hneg.deduction.behind
  · exact newest

/-! ## Conjunction -/

theorem conj_left (hconj : Derivable Γ (conj f g)) : Derivable Γ f := by
  apply modusPonens hconj
  exact schema (s := ⟨imp (conj a b) a⟩) (by simp [schemas]) (assign f g f)

theorem conj_right (hconj : Derivable Γ (conj f g)) : Derivable Γ g := by
  apply modusPonens hconj
  exact schema (s := ⟨imp (conj a b) b⟩) (by simp [schemas]) (assign f g f)

theorem conj_intro (hf : Derivable Γ f) (hg : Derivable Γ g) : Derivable Γ (conj f g) := by
  apply modusPonens hg
  apply modusPonens hf
  exact schema (s := ⟨imp a (imp b (conj a b))⟩) (by simp [schemas]) (assign f g f)

/-! ## Disjunction -/

theorem disj_left (hf : Derivable Γ f) : Derivable Γ (disj f g) := by
  apply modusPonens hf
  exact schema (s := ⟨imp a (disj a b)⟩) (by simp [schemas]) (assign f g f)

theorem disj_right (hg : Derivable Γ g) : Derivable Γ (disj f g) := by
  apply modusPonens hg
  exact schema (s := ⟨imp b (disj a b)⟩) (by simp [schemas]) (assign f g f)

theorem disj_elim (hdisj : Derivable Γ (disj f g)) (hf : Derivable Γ (imp f h)) (hg : Derivable Γ (imp g h)) :
    Derivable Γ h := by
  apply modusPonens hdisj
  apply modusPonens hg
  apply modusPonens hf
  exact schema (s := ⟨imp (imp a c) (imp (imp b c) (imp (disj a b) c))⟩) (by simp [schemas]) (assign f g h)

/-! ## Equivalence -/

theorem equ_forward (hequ : Derivable Γ (equ f g)) : Derivable Γ (imp f g) := by
  apply modusPonens hequ
  exact schema (s := ⟨imp (equ a b) (imp a b)⟩) (by simp [schemas]) (assign f g f)

theorem equ_backward (hequ : Derivable Γ (equ f g)) : Derivable Γ (imp g f) := by
  apply modusPonens hequ
  exact schema (s := ⟨imp (equ a b) (imp b a)⟩) (by simp [schemas]) (assign f g f)

theorem equ_intro (hforward : Derivable Γ (imp f g)) (hbackward : Derivable Γ (imp g f)) :
    Derivable Γ (equ f g) := by
  apply modusPonens hbackward
  apply modusPonens hforward
  exact schema (s := ⟨imp (imp a b) (imp (imp b a) (equ a b))⟩) (by simp [schemas]) (assign f g f)

end Derivable

end PropositionalCalculus.Hilbert
