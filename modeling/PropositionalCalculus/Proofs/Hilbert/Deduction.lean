import PropositionalCalculus.Proofs.Hilbert.Pruning
import PropositionalCalculus.Proofs.Session.Counting

/-!
# The first detachment

A formula can be detached from an implication to it when a member of the proof is the antecedent. The witnesses of
a formula are the numbers of the antecedent and of the implication, in the first such detachment: that of the
earliest implication that can be used at all, with its earliest antecedent (`witnesses_eq_pair_iff`). There are no
witnesses if and only if the formula cannot be detached (`witnesses_eq_nil_iff`).

So the Hilbert system never names a witness that is not a member, and a run that checks a proof with it never fails
for this reason. What it reports is a proof in which the witnesses of every member that has any are a detachment of
its formula from two members before it (`Session.deductions_are_detachments`).
-/

set_option autoImplicit false

namespace PropositionalCalculus

/-- The formula of a member is found one place before its number. -/
theorem Proof.formula?_eq_some_iff {p : Proof} {w : Nat} {f : Formula} :
    p.formula? w = some f ↔ ∃ offset, w = offset + 1 ∧ p.formulas[offset]? = some f := by
  cases w with
  | zero => simp [formula?, get?]
  | succ offset => simp [formula?, get?, formulas]

namespace Hilbert

/-- The first number is that of a member that is an antecedent, and the second that of the implication from it to
the formula. -/
def Detaches (f : Formula) (p : Proof) (i j : Nat) : Prop :=
  ∃ x, p.formula? i = some x ∧ p.formula? j = some (imp x f)

/-- No implication before this one can be used, and no antecedent of it stands before this one. -/
structure FirstDetachment (f : Formula) (p : Proof) (i j : Nat) : Prop where
  detaches : Detaches f p i j
  implication_le {i' j' : Nat} : Detaches f p i' j' → j ≤ j'
  antecedent_le {i' : Nat} : Detaches f p i' j → i ≤ i'

variable {f : Formula} {p : Proof} {premises : List Formula} {i j : Nat}

/-! ## Detachments -/

theorem Detaches.bounds (h : Detaches f p i j) : (0 < i ∧ i ≤ p.length) ∧ 0 < j ∧ j ≤ p.length := by
  obtain ⟨x, hx, himp⟩ := h
  obtain ⟨m, hm, -⟩ := Option.map_eq_some_iff.1 hx
  obtain ⟨n, hn, -⟩ := Option.map_eq_some_iff.1 himp
  exact ⟨Proof.le_of_get? hm, Proof.le_of_get? hn⟩

/-- A detachment from the first members is one from all of them. -/
theorem Detaches.of_take {count : Nat} (h : Detaches f ⟨p.members.take count⟩ i j) :
    i ≤ count ∧ j ≤ count ∧ Detaches f p i j := by
  have htake : ∀ {w : Nat} {g : Formula}, Proof.formula? ⟨p.members.take count⟩ w = some g →
      w ≤ count ∧ p.formula? w = some g := by
    intro w g hg
    obtain ⟨m, hm, rfl⟩ := Option.map_eq_some_iff.1 hg
    obtain ⟨offset, rfl, hoffset⟩ := Proof.get?_eq_some_iff.1 hm
    rw [List.getElem?_take] at hoffset
    split at hoffset
    · rename_i hlt
      have hget : p.get? (offset + 1) = some m := hoffset
      exact ⟨hlt, congrArg (Option.map Member.formula) hget⟩
    · cases hoffset
  obtain ⟨x, hx, himp⟩ := h
  exact ⟨(htake hx).1, (htake himp).1, x, (htake hx).2, (htake himp).2⟩

/-- There is one first detachment at most. -/
theorem FirstDetachment.unique {i' j' : Nat} (h : FirstDetachment f p i j) (h' : FirstDetachment f p i' j') :
    i = i' ∧ j = j' := by
  obtain rfl : j = j' := Nat.le_antisymm (h.implication_le h'.detaches) (h'.implication_le h.detaches)
  exact ⟨Nat.le_antisymm (h.antecedent_le h'.detaches) (h'.antecedent_le h.detaches), rfl⟩

/-! ## What the search finds -/

/-- What is found first stands before everything else that would do. -/
theorem le_of_findIdx? {accepts : Formula → Bool} {formulas : List Formula} {first other : Nat} {g : Formula}
    (h : formulas.findIdx? accepts = some first) (hother : formulas[other]? = some g) (hg : accepts g = true) :
    first ≤ other := by
  obtain ⟨hfirst, -, hbefore⟩ := List.findIdx?_eq_some_iff_getElem.1 h
  obtain ⟨hlt, rfl⟩ := List.getElem?_eq_some_iff.1 hother
  apply Nat.le_of_not_lt
  intro hearlier
  exact hbefore other hearlier hg

/-- **Witnesses are the first detachment.** The outer search has passed over the implications that cannot be used,
and the inner one over what is not the antecedent. -/
theorem exists_firstDetachment (h : witnesses f p ≠ []) :
    ∃ i j, witnesses f p = [i, j] ∧ FirstDetachment f p i j := by
  obtain ⟨x, i, j, hi, hj, himp, hpair⟩ := exists_of_witnesses_ne_nil h
  refine ⟨i + 1, j + 1, hpair, ?_, ?_, ?_⟩
  · obtain ⟨hlt, hx, -⟩ := List.findIdx?_eq_some_iff_getElem.1 hi
    have hget : p.formulas[i]? = some x := by rw [List.getElem?_eq_getElem hlt, eq_of_beq hx]
    exact ⟨x, Proof.formula?_eq_some_iff.2 ⟨i, rfl, hget⟩, Proof.formula?_eq_some_iff.2 ⟨j, rfl, himp⟩⟩
  · rintro i' j' ⟨y, hy, hmajor⟩
    obtain ⟨minor, rfl, hminor⟩ := Proof.formula?_eq_some_iff.1 hy
    obtain ⟨major, rfl, himp'⟩ := Proof.formula?_eq_some_iff.1 hmajor
    have husable : isMajor f p.formulas (imp y f) = true :=
      isMajor_iff.2 ⟨y, List.mem_of_getElem? hminor, rfl⟩
    exact Nat.succ_le_succ (le_of_findIdx? hj himp' husable)
  · rintro i' ⟨y, hy, hmajor⟩
    obtain ⟨minor, rfl, hminor⟩ := Proof.formula?_eq_some_iff.1 hy
    obtain ⟨major, hsame, himp'⟩ := Proof.formula?_eq_some_iff.1 hmajor
    obtain rfl := Nat.succ.inj hsame
    -- The implication is the same one, so the antecedent is as well.
    obtain ⟨-, rfl, -⟩ := Formula.compound.inj (Option.some.inj (himp.symm.trans himp'))
    exact Nat.succ_le_succ (le_of_findIdx? hi hminor (beq_self_eq_true x))

/-- **There are no witnesses exactly when the formula cannot be detached.** -/
theorem witnesses_eq_nil_iff : witnesses f p = [] ↔ ¬ ∃ i j, Detaches f p i j := by
  constructor
  · rintro hnone ⟨i, j, x, hx, himp⟩
    obtain ⟨minor, -, hminor⟩ := Proof.formula?_eq_some_iff.1 hx
    obtain ⟨major, -, hmajor⟩ := Proof.formula?_eq_some_iff.1 himp
    obtain ⟨i', j', hpair, -⟩ := exists_witnesses_eq (List.mem_of_getElem? hminor) (List.mem_of_getElem? hmajor)
    exact List.cons_ne_nil _ _ (hpair.symm.trans hnone)
  · intro hnone
    apply Decidable.of_not_not
    intro hsome
    obtain ⟨i, j, -, hfirst⟩ := exists_firstDetachment hsome
    exact hnone ⟨i, j, hfirst.detaches⟩

/-- **The witnesses are two numbers exactly when these are the first detachment.** -/
theorem witnesses_eq_pair_iff : witnesses f p = [i, j] ↔ FirstDetachment f p i j := by
  constructor
  · intro hpair
    have hsome : witnesses f p ≠ [] := by
      rw [hpair]
      exact List.cons_ne_nil _ _
    obtain ⟨i', j', hpair', hfirst⟩ := exists_firstDetachment hsome
    obtain ⟨rfl, htail⟩ := List.cons.inj (hpair.symm.trans hpair')
    obtain ⟨rfl, -⟩ := List.cons.inj htail
    exact hfirst
  · intro hfirst
    have hsome : witnesses f p ≠ [] := by
      intro hnone
      exact witnesses_eq_nil_iff.1 hnone ⟨i, j, hfirst.detaches⟩
    obtain ⟨i', j', hpair, hfirst'⟩ := exists_firstDetachment hsome
    obtain ⟨rfl, rfl⟩ := hfirst.unique hfirst'
    exact hpair

/-! ## Steps -/

/-- A step can be refused in one way only. -/
theorem eq_notDeducible_of_unwarranted {error : ProofError} (h : Unwarranted system premises p f error) :
    error = .notDeducible := by
  cases h with
  | notDeducible _ _ _ => rfl
  | @unknownWitness known later w _ _ hwitnesses _ hunknown =>
      have hmem : w ∈ system.witnesses f p := by
        rw [hwitnesses]
        exact List.mem_append_right known List.mem_cons_self
      exact absurd (le_of_mem_witnesses hmem) hunknown

/-- **The witnesses of a justified member are the first detachment among the members before it.** -/
theorem firstDetachment_of_justified (h : p.Justified system premises) {k : Nat} {m : Member}
    (hm : p.get? k = some m) (hsome : m.witnesses ≠ []) :
    ∃ i j, m.witnesses = [i, j] ∧ FirstDetachment m.formula ⟨p.members.take (k - 1)⟩ i j := by
  obtain ⟨offset, rfl, hoffset⟩ := Proof.get?_eq_some_iff.1 hm
  obtain ⟨justification, hjust, hwitnesses⟩ := h offset m hoffset
  obtain ⟨type, -, rfl⟩ | ⟨-, number, -, rfl⟩ | ⟨-, -, hnames, rfl⟩ := justify?_cases hjust
  · exact absurd hwitnesses hsome
  · exact absurd hwitnesses hsome
  · obtain ⟨i, j, hpair, hfirst⟩ := exists_firstDetachment hnames
    exact ⟨i, j, hwitnesses.trans hpair, hfirst⟩

/-- What is reported of justified members are justified members. -/
theorem justified_of_report {mode : ProofMode} {report : ProofReport} (h : p.Justified system premises)
    (hreport : mode.report p = .ok report) : report.proof.Justified system premises := by
  cases mode with
  | verify =>
      obtain rfl := Except.ok.inj hreport
      exact h
  | optimize =>
      rw [ProofMode.report_optimize] at hreport
      split at hreport
      · cases hreport
      · obtain rfl := Except.ok.inj hreport
        exact justified_markNeeded h

end Hilbert

namespace Session

open Hilbert

variable {s : Session}

/-- A line on which a run stops cannot be read, or its formula cannot be deduced. -/
theorem error_of_stop (hs : s.system = Hilbert.system) {state : Proving.State} {line : Except LineError Formula}
    {events : List Event} {result : Proving.Result}
    (hturn : s.proofProcedure.onLine state line = (events, .stop result)) {failure : ProofFailure}
    (hfailure : result.2 = .error failure) :
    (∃ error, failure.error = .line error) ∨ failure.error = .proof .notDeducible := by
  rcases s.onLine_turns state line with
    ⟨f, -, -, hnext⟩ | ⟨f, reason, events', -, -, -, hnext⟩ | ⟨error, hrefused, hstop⟩
  · exact (Turn.not_next_and_stop hnext hturn).elim
  · exact (Turn.not_next_and_stop hnext hturn).elim
  · obtain rfl := Turn.stop_unique hstop hturn
    obtain rfl := Except.error.inj hfailure
    cases hrefused with
    | unreadable error => exact Or.inl ⟨error, rfl⟩
    | unwarranted hunwarranted =>
        rw [hs] at hunwarranted
        exact Or.inr (congrArg RunError.proof (eq_notDeducible_of_unwarranted hunwarranted))

/-- **Why a run can fail**: over a line, over a formula that cannot be deduced, or over a proof that is optimal
already. -/
theorem error_of_ends (hs : s.system = Hilbert.system) {state : Proving.State} {source : Source}
    {ending : Ending Proving.Result} (h : s.proofProcedure.Ends s.settings.reading state source ending)
    {failure : ProofFailure} (hfailure : ending.result.2 = .error failure) :
    (∃ error, failure.error = .line error) ∨ failure.error = .proof .notDeducible ∨
      failure.error = .proof .alreadyOptimal := by
  induction h with
  | @finished state source _ =>
      change (Proving.finish s.settings.proofMode state).2 = _ at hfailure
      rcases Proving.finish_cases s.settings.proofMode state with ⟨report, hfinish, -⟩ | hfinish
      · rw [hfinish] at hfailure
        cases hfailure
      · rw [hfinish] at hfailure
        obtain rfl := Except.error.inj hfailure
        exact Or.inr (Or.inr rfl)
  | stopped _ hturn =>
      rcases error_of_stop hs hturn hfailure with hline | hproof
      · exact Or.inl hline
      · exact Or.inr (Or.inl hproof)
  | next _ _ _ ih => exact ih hfailure

/-- **Deductions are detachments.** For every proof and every formula, the Hilbert system names no witnesses if and
only if the formula cannot be detached, and otherwise it names the first detachment. So a run with this system, on
any source and with any settings, never fails over a witness that is not a member, and in the proof that it reports
each member with witnesses has two: an antecedent and the implication from it to the formula of the member, both
before the member. -/
theorem deductions_are_detachments (hs : s.system = Hilbert.system) (source : Source) :
    (∀ f p,
      (s.system.witnesses f p = [] ↔ ¬ ∃ i j, Detaches f p i j) ∧
        (s.system.witnesses f p ≠ [] → ∃ i j, s.system.witnesses f p = [i, j] ∧ FirstDetachment f p i j ∧
          (1 ≤ i ∧ i ≤ p.length) ∧ 1 ≤ j ∧ j ≤ p.length)) ∧
      ∃ run, s.prove source = some run ∧
        (∀ failure, run.result = .error failure → ∀ w, failure.error ≠ .proof (.unknownWitness w)) ∧
        ∀ report, run.result = .ok report →
          ∀ k m, report.proof.get? k = some m → m.witnesses ≠ [] →
            ∃ i j, m.witnesses = [i, j] ∧ i < k ∧ j < k ∧ Detaches m.formula report.proof i j := by
  refine ⟨?_, ?_⟩
  · intro f p
    rw [hs]
    refine ⟨witnesses_eq_nil_iff, ?_⟩
    intro hsome
    obtain ⟨i, j, hpair, hfirst⟩ := exists_firstDetachment hsome
    exact ⟨i, j, hpair, hfirst, hfirst.detaches.bounds⟩
  · obtain ⟨ending, hends, hprove⟩ := exists_prove s source
    refine ⟨_, hprove, ?_, ?_⟩
    · intro failure hfailure w hunknown
      rcases error_of_ends hs hends hfailure with ⟨error, hline⟩ | hproof | hoptimal
      · cases hunknown.symm.trans hline
      · cases hunknown.symm.trans hproof
      · cases hunknown.symm.trans hoptimal
    · intro report hreport k m hm hsome
      obtain ⟨fs, rest, p, -, hextend, hmode⟩ := exists_reads_of_prove hprove hreport
      rw [hs] at hextend
      have hjustified := justified_of_report (Proof.justified_of_extend? hextend) hmode
      obtain ⟨i, j, hpair, hfirst⟩ := firstDetachment_of_justified hjustified hm hsome
      obtain ⟨hi, hj, hdetaches⟩ := hfirst.detaches.of_take
      have hpos := (Proof.le_of_get? hm).1
      exact ⟨i, j, hpair, by omega, by omega, hdetaches⟩

/-- A session for Polish lines of which the first three are premises. -/
def threePremises : Session :=
  { system := Hilbert.system, settings := { reading := .polish, premises := 3 } }

/-- Two implications to `B`, of which only the second one can be used, and its antecedent twice. -/
def passedOver : Source :=
  .ofBytes ">CB\nA\n>AB\n>CB\nA\n>AB\nA\nB\n".toUTF8.data.toList

/-- The proof of these lines. -/
def passedOverProof : Proof :=
  ⟨[⟨imp c b, [], false⟩, ⟨a, [], false⟩, ⟨imp a b, [], false⟩, ⟨a, [], false⟩, ⟨b, [2, 3], false⟩]⟩

/-- The first implication is passed over, and so is the second of the equal antecedents. -/
theorem deductions_are_detachments_passed_over :
    ∃ run, threePremises.prove passedOver = some run ∧ run.result = .ok (.verified passedOverProof) ∧
      Detaches b passedOverProof 2 3 ∧ FirstDetachment b ⟨passedOverProof.members.take 4⟩ 2 3 := by
  obtain ⟨hsearch, run, hrun, -, hmembers⟩ := deductions_are_detachments (s := threePremises) rfl passedOver
  have hverified : (some run).bind (fun run => run.result.toOption) = some (.verified passedOverProof) := by
    rw [← hrun]
    decide +kernel
  have hresult : run.result = .ok (.verified passedOverProof) := by
    rw [Option.bind_some] at hverified
    rcases hcase : run.result with failure | report
    · rw [hcase] at hverified
      cases hverified
    · rw [hcase] at hverified
      obtain rfl := Option.some.inj hverified
      rfl
  have hlast : passedOverProof.get? 5 = some ⟨b, [2, 3], false⟩ := by decide +kernel
  obtain ⟨i, j, hpair, -, -, hdetaches⟩ := hmembers _ hresult 5 _ hlast (List.cons_ne_nil 2 [3])
  obtain ⟨rfl, htail⟩ := List.cons.inj hpair
  obtain ⟨rfl, -⟩ := List.cons.inj htail
  have hnamed : threePremises.system.witnesses b ⟨passedOverProof.members.take 4⟩ = [2, 3] := by decide +kernel
  obtain ⟨i, j, hpair', hfirst, -⟩ := (hsearch b ⟨passedOverProof.members.take 4⟩).2
    (by rw [hnamed]; exact List.cons_ne_nil 2 [3])
  obtain ⟨rfl, htail'⟩ := List.cons.inj (hnamed.symm.trans hpair')
  obtain ⟨rfl, -⟩ := List.cons.inj htail'
  exact ⟨run, hrun, hresult, hdetaches, hfirst⟩

end Session

end PropositionalCalculus
