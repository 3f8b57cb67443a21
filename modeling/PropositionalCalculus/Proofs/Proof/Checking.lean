import Mathlib.Data.List.Induction
import Mathlib.Tactic.ByContra
import PropositionalCalculus.Proofs.Proof.Extension

/-!
# Checking the steps of a proof

`Warrant` says for which reason a formula is accepted as the next step of a proof, and `Unwarranted` with which
error it is refused. Every formula is one or the other (`warrant_or_unwarranted`), never both, and for one reason
only. `Checked` says that formulas are accepted one after the other, each for a reason that lies in the members
before it; the formulas decide about the proof and what is announced (`Checked.unique`).
-/

set_option autoImplicit false

namespace PropositionalCalculus

/-- Why a formula is accepted as the next step of a proof: it is an axiom, or else restates a premise, of which
the first counts, or else the system names witnesses for it, and they are members. -/
inductive Warrant (system : ProofSystem) (premises : List Formula) (p : Proof) (f : Formula) :
    Justification → Prop where
  | axiomOfType {type : Nat} :
      system.axiomType? f = some type → Warrant system premises p f (.axiomOfType type)
  | premise {others later : List Formula} :
      system.axiomType? f = none → premises = others ++ f :: later → f ∉ others →
        Warrant system premises p f (.premise (others.length + 1))
  | deduction :
      system.axiomType? f = none → f ∉ premises → system.witnesses f p ≠ [] →
        (∀ w ∈ system.witnesses f p, 0 < w ∧ w ≤ p.length) →
          Warrant system premises p f (.deduction (system.witnesses f p))

/-- Why a formula is refused: it is no axiom and no premise, and the system names no witnesses, or one that is not
a member. Of these the first is the error. -/
inductive Unwarranted (system : ProofSystem) (premises : List Formula) (p : Proof) (f : Formula) :
    ProofError → Prop where
  | notDeducible :
      system.axiomType? f = none → f ∉ premises → system.witnesses f p = [] →
        Unwarranted system premises p f .notDeducible
  | unknownWitness {known later : List Nat} {w : Nat} :
      system.axiomType? f = none → f ∉ premises → system.witnesses f p = known ++ w :: later →
        (∀ u ∈ known, 0 < u ∧ u ≤ p.length) → ¬ (0 < w ∧ w ≤ p.length) →
          Unwarranted system premises p f (.unknownWitness w)

/-- The proof with the formula as one more member, accepted for the given reason. -/
def Proof.withStep (p : Proof) (f : Formula) (reason : Justification) : Proof :=
  ⟨p.members ++ [⟨f, reason.witnesses, false⟩]⟩

@[simp] theorem Proof.length_withStep (p : Proof) (f : Formula) (reason : Justification) :
    (p.withStep f reason).length = p.length + 1 := by
  rw [length, withStep, List.length_append]
  rfl

@[simp] theorem Proof.formulas_withStep (p : Proof) (f : Formula) (reason : Justification) :
    (p.withStep f reason).formulas = p.formulas ++ [f] := by
  rw [formulas, withStep, List.map_append]
  rfl

/-- There are as many formulas as members. -/
theorem Proof.length_formulas (p : Proof) : p.formulas.length = p.length :=
  List.length_map _

variable {system : ProofSystem} {premises : List Formula} {p : Proof} {f : Formula} {reason : Justification}
  {error : ProofError}

/-! ## One step -/

/-- The first of equal formulas is found. -/
theorem findIdx?_first {others later : List Formula} (h : f ∉ others) :
    (others ++ f :: later).findIdx? (· == f) = some others.length := by
  have hothers : others.findIdx? (· == f) = none := by
    apply List.findIdx?_eq_none_iff.2
    intro g hg
    exact beq_eq_false_iff_ne.2 (ne_of_mem_of_not_mem hg h)
  rw [List.findIdx?_append, hothers, List.findIdx?_cons, if_pos (beq_self_eq_true f), Option.none_or,
    Option.map_some, Nat.zero_add]

theorem findIdx?_of_not_mem (h : f ∉ premises) : premises.findIdx? (· == f) = none := by
  apply List.findIdx?_eq_none_iff.2
  intro g hg
  exact beq_eq_false_iff_ne.2 (ne_of_mem_of_not_mem hg h)

namespace Warrant

theorem justify?_eq (h : Warrant system premises p f reason) :
    justify? system premises p f = some reason := by
  cases h with
  | axiomOfType htype => exact justify?_of_type htype
  | premise htype hpremises hothers =>
      subst hpremises
      exact justify?_of_premise htype (findIdx?_first hothers)
  | deduction htype hpremise hsome _ =>
      exact justify?_of_witnesses htype (findIdx?_of_not_mem hpremise) hsome

theorem witnesses_le (h : Warrant system premises p f reason) :
    ∀ w ∈ reason.witnesses, 0 < w ∧ w ≤ p.length := by
  cases h with
  | axiomOfType _ => exact fun w hw => absurd hw List.not_mem_nil
  | premise _ _ _ => exact fun w hw => absurd hw List.not_mem_nil
  | deduction _ _ _ hknown => exact hknown

/-- **What is warranted is accepted**, and the proof has the formula as its last member. -/
theorem step?_eq (h : Warrant system premises p f reason) :
    p.step? system premises f = .ok (p.withStep f reason) :=
  Proof.step?_eq_ok_iff.2 ⟨reason, h.justify?_eq, h.witnesses_le, rfl⟩

/-- There is one reason only. -/
theorem unique {other : Justification} (h : Warrant system premises p f reason)
    (h' : Warrant system premises p f other) : reason = other :=
  Option.some.inj (h.justify?_eq.symm.trans h'.justify?_eq)

end Warrant

/-- **What is unwarranted is refused with its error.** -/
theorem Unwarranted.step?_eq (h : Unwarranted system premises p f error) :
    p.step? system premises f = .error error := by
  rw [Proof.step?]
  cases h with
  | notDeducible htype hpremise hnone =>
      simp only [justify?, htype, findIdx?_of_not_mem hpremise, hnone]
  | @unknownWitness known later w htype hpremise hwitnesses hknown hunknown =>
      have hsome : system.witnesses f p ≠ [] := by
        rw [hwitnesses]
        exact List.append_ne_nil_of_right_ne_nil _ (List.cons_ne_nil _ _)
      have hfind : (known ++ w :: later).find? (fun u => u == 0 || p.length < u) = some w := by
        refine List.find?_eq_some_iff_append.2 ⟨?_, known, later, rfl, ?_⟩
        · simp only [Bool.or_eq_true, beq_iff_eq, decide_eq_true_eq]
          omega
        · intro u hu
          have := hknown u hu
          simp only [Bool.not_eq_true', Bool.or_eq_false_iff, beq_eq_false_iff_ne, decide_eq_false_iff_not]
          omega
      rw [justify?_of_witnesses htype (findIdx?_of_not_mem hpremise) hsome]
      simp only [Justification.witnesses, Proof.push?, hwitnesses, hfind]

theorem Warrant.not_unwarranted (h : Warrant system premises p f reason) :
    ¬ Unwarranted system premises p f error := by
  intro h'
  exact nomatch h.step?_eq.symm.trans h'.step?_eq

/-- **What is accepted**: the axioms, the premises, and what has witnesses all of which are members. -/
theorem exists_warrant_iff :
    (∃ reason, Warrant system premises p f reason) ↔
      (∃ type, system.axiomType? f = some type) ∨ f ∈ premises ∨
        system.witnesses f p ≠ [] ∧ ∀ w ∈ system.witnesses f p, 0 < w ∧ w ≤ p.length := by
  constructor
  · rintro ⟨reason, h⟩
    cases h with
    | axiomOfType htype => exact Or.inl ⟨_, htype⟩
    | premise _ hpremises _ => exact Or.inr (Or.inl (hpremises ▸ List.mem_append_right _ List.mem_cons_self))
    | deduction _ _ hsome hknown => exact Or.inr (Or.inr ⟨hsome, hknown⟩)
  · intro h
    -- More than one of these may hold, and then the first is the reason.
    cases htype : system.axiomType? f with
    | some type => exact ⟨_, .axiomOfType htype⟩
    | none =>
        by_cases hpremise : f ∈ premises
        · obtain ⟨others, later, hpremises, hothers⟩ := List.eq_append_cons_of_mem hpremise
          exact ⟨_, .premise htype hpremises hothers⟩
        · rcases h with ⟨type, hsome⟩ | hmem | ⟨hsome, hknown⟩
          · exact nomatch hsome.symm.trans htype
          · exact absurd hmem hpremise
          · exact ⟨_, .deduction htype hpremise hsome hknown⟩

/-- **Every formula is accepted for some reason or refused with some error.** -/
theorem warrant_or_unwarranted (system : ProofSystem) (premises : List Formula) (p : Proof) (f : Formula) :
    (∃ reason, Warrant system premises p f reason) ∨ ∃ error, Unwarranted system premises p f error := by
  by_cases haccepted : ∃ reason, Warrant system premises p f reason
  · exact Or.inl haccepted
  · right
    rw [exists_warrant_iff, not_or, not_or] at haccepted
    obtain ⟨hnotype, hpremise, hwitnesses⟩ := haccepted
    have htype : system.axiomType? f = none := by
      cases htype : system.axiomType? f with
      | none => rfl
      | some type => exact absurd ⟨type, htype⟩ hnotype
    -- Of the witnesses that are not members the first one is the error.
    cases hfind : (system.witnesses f p).find? (fun u => !decide (0 < u ∧ u ≤ p.length)) with
    | none =>
        refine ⟨_, .notDeducible htype hpremise ?_⟩
        by_contra hsome
        refine hwitnesses ⟨hsome, fun w hw => ?_⟩
        simpa only [Bool.not_eq_true', Bool.not_eq_false, decide_eq_true_eq] using
          List.find?_eq_none.1 hfind w hw
    | some w =>
        obtain ⟨hunknown, known, later, hsplit, hknown⟩ := List.find?_eq_some_iff_append.1 hfind
        refine ⟨_, .unknownWitness htype hpremise hsplit ?_ ?_⟩
        · intro u hu
          simpa only [Bool.not_not, decide_eq_true_eq] using hknown u hu
        · simpa only [Bool.not_eq_true', decide_eq_false_iff_not] using hunknown

/-! ## One step after the other -/

/-- The formulas are accepted one after the other. They make up the proof, and each is announced with its number
and with the reason that it has. -/
inductive Checked (system : ProofSystem) (premises : List Formula) :
    List Formula → Proof → List Event → Prop where
  | nothing : Checked system premises [] .empty []
  | step {steps : List Formula} {p : Proof} {events : List Event} {f : Formula} {reason : Justification} :
      Checked system premises steps p events → Warrant system premises p f reason →
        Checked system premises (steps ++ [f]) (p.withStep f reason)
          (events ++ [.step (p.length + 1) f reason])

namespace Checked

variable {steps : List Formula} {events : List Event}

/-- The members are the formulas in order. -/
theorem formulas_eq (h : Checked system premises steps p events) : p.formulas = steps := by
  induction h with
  | nothing => rfl
  | step _ _ ih => rw [Proof.formulas_withStep, ih]

theorem length_eq (h : Checked system premises steps p events) : p.length = steps.length := by
  rw [← h.formulas_eq, p.length_formulas]

/-- **The formulas are accepted as steps of the empty proof.** -/
theorem extend?_eq (h : Checked system premises steps p events) :
    Proof.empty.extend? system premises steps = .ok p := by
  induction h with
  | nothing => rfl
  | step _ hwarrant ih => rw [Proof.extend?_snoc ih, hwarrant.step?_eq]

/-- No member has a mark. -/
theorem unmarked (h : Checked system premises steps p events) : ∀ m ∈ p.members, m.kept = false := by
  induction h with
  | nothing => exact fun m hm => absurd hm List.not_mem_nil
  | step _ _ ih =>
      intro m hm
      rcases List.mem_append.1 hm with hm | hm
      · exact ih m hm
      · obtain rfl := List.mem_singleton.1 hm
        rfl

/-- **Each formula has a reason in what stands before it**, and is announced with it. -/
theorem exists_warrant {all : List Formula} (h : Checked system premises all p events)
    {later : List Formula} (hall : all = steps ++ f :: later) :
    ∃ before announced reason, Checked system premises steps before announced ∧
      Warrant system premises before f reason ∧ .step (steps.length + 1) f reason ∈ events := by
  induction h generalizing later with
  | nothing => exact absurd hall (by simp)
  | @step all p announced g reason hbefore hwarrant ih =>
      rcases List.eq_nil_or_concat later with rfl | ⟨rest, last, rfl⟩
      · obtain ⟨rfl, rfl⟩ := List.append_singleton_inj.1 hall
        refine ⟨p, announced, reason, hbefore, hwarrant, ?_⟩
        rw [hbefore.length_eq]
        exact List.mem_append_right _ (List.mem_singleton_self _)
      · rw [List.concat_eq_append, ← List.cons_append, ← List.append_assoc] at hall
        obtain ⟨before, earlier, reason', h', hwarrant', hmem⟩ := ih (List.append_singleton_inj.1 hall).1
        exact ⟨before, earlier, reason', h', hwarrant', List.mem_append_left _ hmem⟩

/-- What is announced is a formula with its number and its reason. -/
theorem exists_of_mem (h : Checked system premises steps p events) {event : Event} (hevent : event ∈ events) :
    ∃ earlier f later reason before, steps = earlier ++ f :: later ∧
      event = .step (earlier.length + 1) f reason ∧ Warrant system premises before f reason := by
  induction h with
  | nothing => exact absurd hevent List.not_mem_nil
  | @step steps p announced f reason hbefore hwarrant ih =>
      rcases List.mem_append.1 hevent with hold | hnew
      · obtain ⟨earlier, g, later, reason', before, rfl, rfl, hwarrant'⟩ := ih hold
        exact ⟨earlier, g, later ++ [f], reason', before, by simp, rfl, hwarrant'⟩
      · obtain rfl := List.mem_singleton.1 hnew
        exact ⟨steps, f, [], reason, p, rfl, by rw [hbefore.length_eq], hwarrant⟩

/-- **The formulas decide about the proof and about what is announced.** -/
theorem unique {q : Proof} {others : List Event} (h : Checked system premises steps p events)
    (h' : Checked system premises steps q others) : p = q ∧ events = others := by
  induction h generalizing q others with
  | nothing =>
      generalize hsteps : ([] : List Formula) = steps at h'
      cases h' with
      | nothing => exact ⟨rfl, rfl⟩
      | step _ _ => exact absurd hsteps (by simp)
  | step _ hwarrant ih =>
      generalize hsteps : _ ++ [_] = all at h'
      cases h' with
      | nothing => exact absurd hsteps (by simp)
      | step hbefore hwarrant' =>
          obtain ⟨rfl, rfl⟩ := List.append_singleton_inj.1 hsteps
          obtain ⟨rfl, rfl⟩ := ih hbefore
          rw [hwarrant.unique hwarrant']
          exact ⟨rfl, rfl⟩

end Checked

end PropositionalCalculus
