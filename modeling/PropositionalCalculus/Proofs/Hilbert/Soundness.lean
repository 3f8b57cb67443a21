import PropositionalCalculus.Formula.Valuation
import PropositionalCalculus.Proofs.Hilbert.Acceptance
import PropositionalCalculus.Proofs.Session.Proving

/-!
# Soundness of the Hilbert system

Every schema is a tautology, so every axiom is one, and modus ponens gives true formulas from true ones. Under
a valuation that makes the premises true, a step that is accepted keeps the whole proof true (`truth_of_step`),
and so does a run from its first line to its last.
-/

set_option autoImplicit false

namespace PropositionalCalculus

namespace Hilbert

/-- The truth of the schemas is a matter of three truth values. -/
theorem tautology_of_mem_schemas {s : Schema} (h : s ∈ schemas) : s.pattern.Tautology := by
  intro v
  simp only [schemas, List.mem_cons, List.not_mem_nil, or_false] at h
  rcases h with rfl | rfl | rfl | rfl | rfl | rfl | rfl | rfl | rfl | rfl | rfl | rfl <;>
    simp only [imp, conj, disj, equ, a, b, c, Formula.truth, Connective.truth] <;>
    cases v 'A' <;> cases v 'B' <;> cases v 'C' <;> rfl

/-- **An axiom is a tautology**, since it is an instance of one. -/
theorem tautology_of_axiomType? {f : Formula} {type : Nat} (h : axiomType? f = some type) :
    f.Tautology := by
  obtain ⟨s, hs, σ, rfl⟩ := exists_axiomType?_iff.1 ⟨type, h⟩
  intro v
  -- The valuation that a letter's instance has makes the schema true.
  rw [Formula.truth_substitute]
  exact tautology_of_mem_schemas hs _

/-- Modus ponens preserves truth. -/
theorem truth_of_imp {v : Char → Bool} {x f : Formula} (hx : x.truth v = true)
    (himp : (imp x f).truth v = true) : f.truth v = true := by
  rw [imp, Formula.truth, Connective.truth, hx] at himp
  exact himp

/-- All formulas of the proof are true. -/
def AllTrue (v : Char → Bool) (p : Proof) : Prop :=
  ∀ m ∈ p.members, m.formula.truth v = true

theorem AllTrue.formulas {v : Char → Bool} {p : Proof} (h : AllTrue v p) :
    ∀ f ∈ p.formulas, f.truth v = true := by
  intro f hf
  obtain ⟨m, hm, rfl⟩ := List.mem_map.1 hf
  exact h m hm

variable {v : Char → Bool} {premises : List Formula}

/-- What is justified by true premises and true members is true. -/
theorem truth_of_justify? (hpremises : ∀ f ∈ premises, f.truth v = true) {p : Proof} (hp : AllTrue v p)
    {f : Formula} {justification : Justification}
    (h : justify? system premises p f = some justification) : f.truth v = true := by
  obtain ⟨type, htype⟩ | hpremise | ⟨x, hx, himp⟩ := exists_justify?_iff.1 ⟨justification, h⟩
  · exact tautology_of_axiomType? htype v
  · exact hpremises f hpremise
  · exact truth_of_imp (hp.formulas x hx) (hp.formulas _ himp)

/-- **An accepted step keeps the proof true.** -/
theorem truth_of_step (hpremises : ∀ f ∈ premises, f.truth v = true) {p q : Proof} {f : Formula}
    (hp : AllTrue v p) (h : p.step? system premises f = .ok q) : AllTrue v q := by
  obtain ⟨justification, hjust, -, rfl⟩ := Proof.step?_eq_ok_iff.1 h
  intro m hm
  rcases List.mem_append.1 hm with hm | hm
  · exact hp m hm
  · obtain rfl := List.mem_singleton.1 hm
    exact truth_of_justify? hpremises hp hjust

/-- Accepted steps are true. -/
theorem truth_of_extend (hpremises : ∀ f ∈ premises, f.truth v = true) {steps : List Formula} {p : Proof}
    (h : Proof.empty.extend? system premises steps = .ok p) : AllTrue v p := by
  refine Proof.extend?_preserves ?_ ?_ h
  · intro p q f hp hstep
    exact truth_of_step hpremises hp hstep
  · intro m hm
    simp [Proof.empty] at hm

end Hilbert

/-- **Soundness**: a proof run with the Hilbert system ends, and whatever proof it reports is true under every
valuation that makes the premises true. Without premises every member is a tautology. -/
theorem Session.prove_sound {s : Session} (hs : s.system = Hilbert.system) (source : Source) :
    ∃ run, s.prove source = some run ∧ ∀ report, run.result = .ok report →
      (∀ v, (∀ f ∈ s.settings.reading.firstFormulas s.settings.premises source, f.truth v = true) →
        ∀ m ∈ report.proof.members, m.formula.truth v = true) ∧
      (s.settings.premises = 0 → ∀ m ∈ report.proof.members, m.formula.Tautology) := by
  obtain ⟨ending, -, hprove⟩ := exists_prove s source
  refine ⟨_, hprove, ?_⟩
  intro report hreport
  obtain ⟨fs, rest, p, hreads, hextend, hmode⟩ := exists_reads_of_prove hprove hreport
  rw [hs] at hextend
  have htrue : ∀ v, (∀ f ∈ fs.take s.settings.premises, f.truth v = true) →
      ∀ m ∈ report.proof.members, m.formula.truth v = true := by
    intro v hpremises m hm
    have hformula : m.formula ∈ p.formulas :=
      ProofMode.formulas_of_report hmode ▸ List.mem_map_of_mem hm
    exact (Hilbert.truth_of_extend hpremises hextend).formulas m.formula hformula
  rw [hreads.firstFormulas_eq]
  refine ⟨htrue, ?_⟩
  intro hnone m hm v
  apply htrue v ?_ m hm
  simp [hnone]

/-- From `A` and the implication from `A` to `B` a run proves `B`, so `B` is true when both are. -/
theorem Session.prove_sound_modus_ponens :
    ∃ run report,
      Session.prove { system := Hilbert.system, settings := { reading := .polish, premises := 2 } }
        (Source.ofBytes ">AB\nA\n>AB\nA\nB\n".toUTF8.data.toList) = some run ∧
      run.result = .ok report ∧
      report.proof.formulas = [Hilbert.imp Hilbert.a Hilbert.b, Hilbert.a, Hilbert.b] ∧
      ∀ m ∈ report.proof.members, m.formula.truth (fun _ => true) = true := by
  obtain ⟨run, hrun, hsound⟩ := Session.prove_sound
    (s := { system := Hilbert.system, settings := { reading := .polish, premises := 2 } }) rfl
    (Source.ofBytes ">AB\nA\n>AB\nA\nB\n".toUTF8.data.toList)
  have hformulas : (some run).bind (fun run => run.result.toOption.map fun report =>
      report.proof.formulas) = some [Hilbert.imp Hilbert.a Hilbert.b, Hilbert.a, Hilbert.b] := by
    rw [← hrun]
    decide +kernel
  rcases hresult : run.result with failure | report
  · rw [Option.bind_some, hresult] at hformulas
    exact nomatch hformulas
  · rw [Option.bind_some, hresult] at hformulas
    refine ⟨run, report, hrun, hresult, Option.some.inj hformulas, (hsound report hresult).1 _ ?_⟩
    decide +kernel

end PropositionalCalculus
