import Mathlib.Tactic.ByContra
import PropositionalCalculus.Proofs.Hilbert.ModusPonens
import PropositionalCalculus.Proofs.Proof.Renumbering
import PropositionalCalculus.Proofs.Session.Proving

/-!
# Pruned proofs are proofs

The Hilbert system looks for witnesses by formulas alone, so marks do not matter to it. When the first
implication and the first antecedent are both kept, they are still the first ones among the kept members
(`witnesses_filter`). So the kept formulas are accepted one after the other, with the witnesses under their new
numbers (`extend?_keptFormulas`).
-/

set_option autoImplicit false

namespace PropositionalCalculus

namespace Hilbert

open Proof

theorem witnesses_congr {p q : Proof} (h : p.formulas = q.formulas) (f : Formula) :
    witnesses f p = witnesses f q := by
  rw [witnesses, witnesses, h]

theorem justify?_congr {premises : List Formula} {p q : Proof} (h : p.formulas = q.formulas) (f : Formula) :
    justify? system premises p f = justify? system premises q f := by
  have hwitnesses : system.witnesses f p = system.witnesses f q := witnesses_congr h f
  rw [justify?, justify?, hwitnesses]

/-- Marks do not matter to what is justified. -/
theorem justified_markNeeded {premises : List Formula} {p : Proof} (h : p.Justified system premises) :
    p.markNeeded.Justified system premises := by
  intro offset m hm
  have hget : p.markNeeded.get? (offset + 1) = some m := hm
  obtain ⟨n, hn, hformula, hwitnesses⟩ := exists_get?_of_unmarked_eq (unmarked_markNeeded p) hget
  have hbefore : formulas ⟨p.markNeeded.members.take offset⟩ = formulas ⟨p.members.take offset⟩ := by
    have hall := congrArg (List.take offset) (formulas_markNeeded p)
    rwa [formulas, formulas, ← List.map_take, ← List.map_take] at hall
  rw [justify?_congr hbefore, ← hformula, ← hwitnesses]
  exact h offset n hn

/-- **The first modus ponens among the kept members** is the image of the first one among all, when both of
its members are kept. -/
theorem witnesses_filter {p r : Proof} {f : Formula} (h : witnesses f p ≠ [])
    (hkeeps : ∀ w ∈ witnesses f p, p.Keeps w) (hr : r.formulas = p.keptFormulas) :
    witnesses f r = (witnesses f p).map p.rank := by
  obtain ⟨x, i, j, hi, hj, himp, hpair⟩ := exists_of_witnesses_ne_nil h
  rw [hpair] at hkeeps ⊢
  obtain ⟨m, hm, hmkept⟩ := hkeeps (i + 1) List.mem_cons_self
  obtain ⟨n, hn, hnkept⟩ := hkeeps (j + 1) (List.mem_cons_of_mem _ List.mem_cons_self)
  have hmx : (m.formula == x) = true := by
    obtain ⟨hlt, hx, -⟩ := List.findIdx?_eq_some_iff_getElem.1 hi
    obtain ⟨hlt', hformula⟩ := List.getElem?_eq_some_iff.1 (getElem?_formulas hm)
    rwa [hformula] at hx
  have hnf : n.formula = imp x f := by
    rw [getElem?_formulas hn] at himp
    exact Option.some.inj himp
  obtain ⟨i', hi', hati, hranki⟩ := findIdx?_keptFormulas hi hm hmkept hmx fun _ => id
  -- Any implication with a kept antecedent was one with an antecedent before.
  have hmajor : ∀ g, isMajor f r.formulas g = true → isMajor f p.formulas g = true := by
    intro g hg
    obtain ⟨y, hy, rfl⟩ := isMajor_iff.1 hg
    rw [hr] at hy
    exact isMajor_iff.2 ⟨y, mem_formulas_of_mem_keptFormulas hy, rfl⟩
  have hn' : isMajor f r.formulas n.formula = true := by
    have hx : x ∈ r.formulas := by
      rw [hr, ← eq_of_beq hmx]
      exact List.mem_of_getElem? hati
    exact isMajor_iff.2 ⟨x, hx, hnf⟩
  obtain ⟨j', hj', hatj, hrankj⟩ := findIdx?_keptFormulas hj hn hnkept hn' hmajor
  rw [← hr] at hi' hj' hatj
  rw [witnesses_eq hi' hj' (hnf ▸ hatj), List.map_cons, List.map_singleton, hranki, hrankj]

/-- What is justified stays so when only the kept members are left, and the witnesses get new numbers. -/
theorem justify?_filter {premises : List Formula} {p r : Proof} {f : Formula} {justification : Justification}
    (h : justify? system premises p f = some justification)
    (hkeeps : ∀ w ∈ justification.witnesses, p.Keeps w) (hr : r.formulas = p.keptFormulas) :
    ∃ justification', justify? system premises r f = some justification' ∧
      justification'.witnesses = justification.witnesses.map p.rank := by
  obtain ⟨type, htype, rfl⟩ | ⟨htype, offset, hpremise, rfl⟩ | ⟨htype, hpremise, hwitnesses, rfl⟩ :=
    justify?_cases h
  · exact ⟨_, justify?_of_type htype, rfl⟩
  · exact ⟨_, justify?_of_premise htype hpremise, rfl⟩
  · have hfilter : system.witnesses f r = (system.witnesses f p).map p.rank :=
      witnesses_filter hwitnesses hkeeps hr
    have hsome : system.witnesses f r ≠ [] := by
      rw [hfilter]
      exact mt List.map_eq_nil_iff.1 hwitnesses
    exact ⟨_, justify?_of_witnesses htype hpremise hsome, hfilter⟩

section Kept

variable {premises : List Formula} {p : Proof}

variable (hjustified : p.Justified system premises) (hgrounded : p.Grounded)
  (hclosed : p.ClosedUnder p.Keeps)

include hjustified hgrounded hclosed

/-- A kept member is accepted behind the kept ones before it. -/
theorem step?_prunedUpTo {offset : Nat} {m : Member} (hm : p.members[offset]? = some m)
    (hkept : m.kept = true) :
    (prunedUpTo p offset).step? system premises m.formula =
      .ok ⟨(prunedUpTo p offset).members ++ [m.renumbered p.rank]⟩ := by
  have hget : p.get? (offset + 1) = some m := hm
  have hle : ∀ u ∈ m.witnesses, u ≤ offset := by
    intro u hu
    exact Nat.le_of_lt_succ (hgrounded (offset + 1) m hget u hu).2
  have hkeeps : ∀ u ∈ m.witnesses, p.Keeps u := hclosed (offset + 1) m hget ⟨m, hget, hkept⟩
  obtain ⟨justification, hjust, hwitnesses⟩ := hjustified offset m hm
  have hbefore : ∀ u ∈ justification.witnesses, Keeps ⟨p.members.take offset⟩ u := by
    rw [← hwitnesses]
    intro u hu
    exact (hkeeps u hu).take (hle u hu)
  obtain ⟨justification', hjust', hnumbers⟩ :=
    justify?_filter hjust hbefore (formulas_prunedUpTo p offset)
  -- The witnesses come before the member, so their ranks are the same in the whole proof.
  have hranks : justification'.witnesses = m.witnesses.map p.rank := by
    rw [hnumbers, ← hwitnesses]
    apply List.map_congr_left
    intro u hu
    exact rank_take (hle u hu)
  refine step?_eq_ok_iff.2 ⟨justification', hjust', ?_, by rw [hranks]; rfl⟩
  rw [hranks, length_prunedUpTo]
  intro v hv
  obtain ⟨u, hu, rfl⟩ := List.mem_map.1 hv
  exact ⟨(hkeeps u hu).rank_pos, rank_le_of_le (hle u hu)⟩

/-- The kept formulas of the first members are accepted: an induction on their number. -/
theorem extend?_keptFormulas_take (count : Nat) :
    empty.extend? system premises (keptFormulas ⟨p.members.take count⟩) = .ok (prunedUpTo p count) := by
  induction count with
  | zero => rfl
  | succ count ih =>
      cases hm : p.members[count]? with
      | none =>
          have hle := List.getElem?_eq_none_iff.1 hm
          rw [prunedUpTo, List.take_of_length_le hle] at ih
          rw [prunedUpTo, List.take_of_length_le (Nat.le_succ_of_le hle)]
          exact ih
      | some m =>
          by_cases hkept : m.kept = true
          · rw [keptFormulas, prunedUpTo, filter_take_succ_of_pos hm hkept, List.map_append,
              List.map_append]
            exact (extend?_snoc ih m.formula).trans
              (step?_prunedUpTo hjustified hgrounded hclosed hm hkept)
          · rw [keptFormulas, prunedUpTo, filter_take_succ_of_neg hm hkept]
            exact ih

/-- **The kept formulas are accepted, and make up the pruned proof.** -/
theorem extend?_keptFormulas : empty.extend? system premises p.keptFormulas = .ok p.pruned := by
  have h := extend?_keptFormulas_take hjustified hgrounded hclosed p.members.length
  rwa [prunedUpTo, List.take_length, ← pruned_eq hgrounded hclosed] at h

end Kept

/-- **What is left of an accepted proof after marking and pruning is accepted too.** -/
theorem extend?_keptFormulas_markNeeded {premises steps : List Formula} {p : Proof}
    (h : empty.extend? system premises steps = .ok p) :
    empty.extend? system premises p.markNeeded.keptFormulas = .ok p.markNeeded.pruned := by
  have hgrounded := grounded_of_extend? h
  exact extend?_keptFormulas (justified_markNeeded (justified_of_extend? h)) hgrounded.markNeeded
    (closedUnder_markNeeded hgrounded)

end Hilbert

namespace Session

/-- The premises of a source and the kept formulas of a proof, one below the other. -/
def keptSource (s : Session) (source : Source) (proof : Proof) : Source :=
  .ofBytes (Formula.lines s.settings.reading
    (s.settings.reading.firstFormulas s.settings.premises source ++ proof.keptFormulas))

/-- What an optimizing run has read when it reports a proof. -/
theorem exists_reads_of_optimized {s : Session} {source : Source}
    {run : Run (Except ProofFailure ProofReport)} (hrun : (s.withMode .optimize).prove source = some run)
    {proof : Proof} (hreport : run.result = .ok (.optimized proof)) :
    ∃ fs rest p, s.settings.reading.Reads source fs rest ∧
      Proof.empty.extend? s.system (fs.take s.settings.premises) (fs.drop s.settings.premises) = .ok p ∧
        proof = p.markNeeded ∧ s.settings.premises < fs.length := by
  obtain ⟨fs, rest, p, hreads, hextend, hmode⟩ := exists_reads_of_prove hrun hreport
  change ProofMode.optimize.report p = .ok (.optimized proof) at hmode
  rw [ProofMode.report_optimize] at hmode
  split at hmode
  · simp at hmode
  · rename_i hneeded
    refine ⟨fs, rest, p, hreads, hextend, (ProofReport.optimized.inj (Except.ok.inj hmode)).symm, ?_⟩
    -- A proof without members would be optimal.
    by_contra hfew
    have hnothing : fs.drop s.settings.premises = [] := List.drop_of_length_le (Nat.le_of_not_lt hfew)
    change Proof.empty.extend? s.system _ (fs.drop s.settings.premises) = .ok p at hextend
    rw [hnothing, Proof.extend?_nil] at hextend
    obtain rfl := Except.ok.inj hextend
    have hle : Proof.empty.markNeeded.length ≤ Proof.empty.markNeeded.keptCount := by
      rw [Proof.length_markNeeded]
      exact Nat.zero_le _
    exact hneeded (Nat.le_antisymm List.countP_le_length hle)

/-- **An optimized proof is a proof**: all premises were there, and when they and the kept formulas are written
down again, checking them gives the pruned proof, and nothing more can be left out. -/
theorem prove_keptSource {s : Session} (hs : s.system = Hilbert.system) {source : Source}
    {run : Run (Except ProofFailure ProofReport)} (hrun : (s.withMode .optimize).prove source = some run)
    {proof : Proof} (hreport : run.result = .ok (.optimized proof)) :
    (s.settings.reading.firstFormulas s.settings.premises source).length = s.settings.premises ∧
      (∃ verified, (s.withMode .verify).prove (s.keptSource source proof) = some verified ∧
        verified.result = .ok (.verified proof.pruned)) ∧
      ∃ again, (s.withMode .optimize).prove (s.keptSource source proof) = some again ∧
        again.result = .error ⟨0, 0, .proof .alreadyOptimal⟩ := by
  obtain ⟨fs, rest, p, hreads, hextend, rfl, hlength⟩ := exists_reads_of_optimized hrun hreport
  have hpremises : (fs.take s.settings.premises).length = s.settings.premises := by
    rw [List.length_take, Nat.min_eq_left (Nat.le_of_lt hlength)]
  have hformulas : p.formulas = fs.drop s.settings.premises := Proof.formulas_of_extend? hextend
  have hplain : ∀ f ∈ fs.take s.settings.premises ++ p.markNeeded.keptFormulas, f.Plain := by
    intro f hf
    rcases List.mem_append.1 hf with hf | hf
    · exact hreads.plain f (List.mem_of_mem_take hf)
    · have hmem := Proof.mem_formulas_of_mem_keptFormulas hf
      rw [Proof.formulas_markNeeded, hformulas] at hmem
      exact hreads.plain f (List.mem_of_mem_drop hmem)
  have hread := Notation.reads_lines (n := s.settings.reading) hplain
  rw [hs] at hextend
  have hkept : Proof.empty.extend? s.system
      ((fs.take s.settings.premises ++ p.markNeeded.keptFormulas).take s.settings.premises)
      ((fs.take s.settings.premises ++ p.markNeeded.keptFormulas).drop s.settings.premises) =
        .ok p.markNeeded.pruned := by
    rw [List.take_left' hpremises, List.drop_left' hpremises, hs]
    exact Hilbert.extend?_keptFormulas_markNeeded hextend
  have hoptimal : ProofMode.optimize.report p.markNeeded.pruned =
      .error ⟨0, 0, .proof .alreadyOptimal⟩ := by
    rw [ProofMode.report_optimize]
    exact if_pos (Proof.keptCount_markNeeded_pruned (Proof.grounded_of_extend? hextend))
  rw [keptSource, hreads.firstFormulas_eq]
  refine ⟨hpremises, ?_, ?_⟩
  · obtain ⟨verified, hprove, hresult⟩ := exists_prove_of_reads (s := s.withMode .verify) hread hkept
    exact ⟨verified, hprove, hresult⟩
  · obtain ⟨again, hprove, hresult⟩ := exists_prove_of_reads (s := s.withMode .optimize) hread hkept
    exact ⟨again, hprove, hresult.trans hoptimal⟩

/-- A session for Polish lines of which the first two are premises. -/
def twoPremises : Session :=
  { system := Hilbert.system, settings := { reading := .polish, premises := 2 } }

/-- Modus ponens with an axiom in between that is of no use. -/
def detour : Source :=
  .ofBytes "A\n>AB\n>A>BA\nA\n>AB\nB\n".toUTF8.data.toList

/-- The axiom is left out, and the witnesses move up. -/
theorem prove_keptSource_detour :
    ∃ run proof,
      (twoPremises.withMode .optimize).prove detour = some run ∧
      run.result = .ok (.optimized proof) ∧
      proof.pruned = ⟨[⟨Hilbert.a, [], false⟩, ⟨Hilbert.imp Hilbert.a Hilbert.b, [], false⟩,
        ⟨Hilbert.b, [1, 2], false⟩]⟩ ∧
      ∃ verified,
        (twoPremises.withMode .verify).prove (twoPremises.keptSource detour proof) = some verified ∧
        verified.result = .ok (.verified proof.pruned) := by
  have hresult : ((twoPremises.withMode .optimize).prove detour).bind (fun run => run.result.toOption) =
      some (.optimized ⟨[⟨Hilbert.imp Hilbert.a (Hilbert.imp Hilbert.b Hilbert.a), [], false⟩,
        ⟨Hilbert.a, [], true⟩, ⟨Hilbert.imp Hilbert.a Hilbert.b, [], true⟩,
        ⟨Hilbert.b, [2, 3], true⟩]⟩) := by
    decide +kernel
  obtain ⟨run, hrun, hreport⟩ := Option.bind_eq_some_iff.1 hresult
  rcases hcase : run.result with failure | report
  · rw [hcase] at hreport
    exact nomatch hreport
  · rw [hcase] at hreport
    obtain rfl := Option.some.inj hreport
    have hpruned : Proof.pruned ⟨[⟨Hilbert.imp Hilbert.a (Hilbert.imp Hilbert.b Hilbert.a), [], false⟩,
        ⟨Hilbert.a, [], true⟩, ⟨Hilbert.imp Hilbert.a Hilbert.b, [], true⟩,
        ⟨Hilbert.b, [2, 3], true⟩]⟩ =
          ⟨[⟨Hilbert.a, [], false⟩, ⟨Hilbert.imp Hilbert.a Hilbert.b, [], false⟩,
            ⟨Hilbert.b, [1, 2], false⟩]⟩ := by
      decide +kernel
    obtain ⟨-, hverified, -⟩ := prove_keptSource rfl hrun hcase
    exact ⟨run, _, hrun, hcase, hpruned, hverified⟩

end Session

end PropositionalCalculus
