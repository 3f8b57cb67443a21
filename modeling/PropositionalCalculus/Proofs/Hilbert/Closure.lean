import PropositionalCalculus.Proofs.Hilbert.Acceptance
import PropositionalCalculus.Proofs.Session.Verification

/-!
# New proofs from accepted ones

What a verifying run with the Hilbert system accepts can be transformed, and is accepted again. Formulas can be put
in the place of letters in all premises and steps (`Session.verifies_substituted`): steps may then have other
reasons than before, but an axiom stays one, of the same type or of one that is tried earlier. And the steps of two
proofs can be mixed, each in its own order, under any premises that include those of both
(`Session.verifies_interleaved`).
-/

set_option autoImplicit false

namespace PropositionalCalculus

/-- A plain formula stays plain when plain formulas are put in the place of the letters `A` to `Z`. -/
theorem Formula.Plain.substitute {σ : Char → Formula}
    (hσ : ∀ c, Formula.isPlainLetter c = true → (σ c).Plain) {f : Formula} (hf : f.Plain) :
    (f.substitute σ).Plain := by
  induction f with
  | letter c => exact hσ c hf
  | negation body ih => exact ih hf
  | compound op left right ihl ihr => exact ⟨ihl hf.1, ihr hf.2⟩

/-- The lines of a source give one list of formulas only. -/
theorem Notation.Reads.formulas_unique {n : Notation} {source rest rest' : Source} {fs gs : List Formula}
    (h : n.Reads source fs rest) (h' : n.Reads source gs rest') : fs = gs := by
  have hfirst : fs.take (fs.length + gs.length) = gs.take (fs.length + gs.length) :=
    (h.firstFormulas_eq _).symm.trans (h'.firstFormulas_eq _)
  rwa [List.take_of_length_le (Nat.le_add_right _ _), List.take_of_length_le (Nat.le_add_left _ _)] at hfirst

/-- The elements of both lists, each in its own order. -/
inductive Interleaving {α : Type} : List α → List α → List α → Prop where
  | nil : Interleaving [] [] []
  | left {x : α} {xs ys zs : List α} : Interleaving xs ys zs → Interleaving (x :: xs) ys (x :: zs)
  | right {y : α} {xs ys zs : List α} : Interleaving xs ys zs → Interleaving xs (y :: ys) (y :: zs)

namespace Interleaving

variable {α : Type} {xs ys zs : List α}

theorem length_eq (h : Interleaving xs ys zs) : zs.length = xs.length + ys.length := by
  induction h with
  | nil => rfl
  | left _ ih =>
      rw [List.length_cons, List.length_cons, ih]
      omega
  | right _ ih =>
      rw [List.length_cons, List.length_cons, ih]
      omega

theorem mem_or_mem (h : Interleaving xs ys zs) {z : α} (hz : z ∈ zs) : z ∈ xs ∨ z ∈ ys := by
  induction h with
  | nil => exact absurd hz List.not_mem_nil
  | left _ ih =>
      rcases List.mem_cons.1 hz with rfl | hz
      · exact Or.inl List.mem_cons_self
      · exact (ih hz).imp_left (List.mem_cons_of_mem _)
  | right _ ih =>
      rcases List.mem_cons.1 hz with rfl | hz
      · exact Or.inr List.mem_cons_self
      · exact (ih hz).imp_right (List.mem_cons_of_mem _)

end Interleaving

namespace Hilbert

variable {premises premises' before before' all steps steps' merged : List Formula} {f : Formula}

/-- **An axiom stays an axiom under a substitution**: the schema that was found first still admits it. -/
theorem exists_axiomType?_substitute {type : Nat} (h : axiomType? f = some type) (σ : Char → Formula) :
    ∃ type' ≤ type, axiomType? (f.substitute σ) = some type' := by
  obtain ⟨offset, hfound, rfl⟩ := Option.map_eq_some_iff.1 h
  have hadmits : ∀ s ∈ schemas, s.admits f = true → s.admits (f.substitute σ) = true := by
    intro s hs hf
    obtain ⟨τ, rfl⟩ := Schema.exists_substitute_of_admits hf
    rw [Formula.substitute_substitute]
    exact Schema.admits_substitute (plain_of_mem_schemas s hs) _
  obtain ⟨offset', hle, hfound'⟩ := List.findIdx?_eq_some_le_of_findIdx?_eq_some hadmits hfound
  exact ⟨offset' + 1, Nat.succ_le_succ hle, Option.map_eq_some_iff.2 ⟨offset', hfound', rfl⟩⟩

/-- What follows still follows from more premises. -/
theorem Follows.weaken (h : Follows premises before f) (hsub : premises ⊆ premises') :
    Follows premises' before f := by
  rcases h with hschema | hpremise | himp
  · exact Or.inl hschema
  · exact Or.inr (Or.inl (hsub hpremise))
  · exact Or.inr (Or.inr himp)

/-- **Accepted steps are accepted under more premises.** -/
theorem Accepted.weaken (h : Accepted premises before steps) (hsub : premises ⊆ premises') :
    Accepted premises' before steps := by
  induction steps generalizing before with
  | nil => trivial
  | cons f steps ih => exact ⟨h.1.weaken hsub, ih h.2⟩

/-- **Accepted steps can be mixed**, behind everything that stood before them. -/
theorem Accepted.interleave (h : Interleaving steps steps' merged) (hsteps : Accepted premises before steps)
    (hsteps' : Accepted premises before' steps') (hbefore : before ⊆ all) (hbefore' : before' ⊆ all) :
    Accepted premises all merged := by
  induction h generalizing before before' all with
  | nil => trivial
  | @left f _ _ _ _ ih =>
      -- A step of one proof comes to stand before the later steps of both.
      have hall := List.subset_append_of_subset_left [f] hbefore
      have hall' := List.subset_append_of_subset_left [f] hbefore'
      have hnext := List.append_subset.2 ⟨hall, List.subset_append_right all [f]⟩
      exact ⟨hsteps.1.mono hbefore, ih hsteps.2 hsteps' hnext hall'⟩
  | @right f _ _ _ _ ih =>
      have hall := List.subset_append_of_subset_left [f] hbefore
      have hall' := List.subset_append_of_subset_left [f] hbefore'
      have hnext := List.append_subset.2 ⟨hall', List.subset_append_right all [f]⟩
      exact ⟨hsteps'.1.mono hbefore', ih hsteps hsteps'.2 hall hnext⟩

/-- **An announced axiom is announced as one under a substitution too.** -/
theorem exists_announced_substitute {σ : Char → Formula} {p q : Proof} {announced announced' : List Event}
    (h : Checked system premises steps p announced)
    (h' : Checked system premises' (steps.map (·.substitute σ)) q announced') {k type : Nat}
    (hmem : .step k f (.axiomOfType type) ∈ announced) :
    ∃ type' ≤ type, .step k (f.substitute σ) (.axiomOfType type') ∈ announced' := by
  obtain ⟨earlier, g, later, reason, before, rfl, hevent, hwarrant⟩ := h.exists_of_mem hmem
  obtain ⟨rfl, rfl, rfl⟩ := Event.step.inj hevent
  cases hwarrant with
  | axiomOfType htype =>
      obtain ⟨type', hle, htype'⟩ := exists_axiomType?_substitute htype σ
      rw [List.map_append, List.map_cons] at h'
      obtain ⟨before', -, reason', -, hwarrant', hmem'⟩ := h'.exists_warrant rfl
      obtain rfl := hwarrant'.unique (.axiomOfType htype')
      rw [List.length_map] at hmem'
      exact ⟨type', hle, hmem'⟩

end Hilbert

/-- When the first of some formulas are the ones in front, the others are the ones behind. -/
theorem Formula.drop_eq_of_take_eq {premises steps : List Formula} {count : Nat}
    (h : (premises ++ steps).take count = premises) : (premises ++ steps).drop count = steps := by
  have hsplit := List.take_append_drop count (premises ++ steps)
  rw [h] at hsplit
  exact List.append_cancel_left hsplit

namespace Session

/-- **A verifying run accepts the steps under the premises**: it reads them from the source, as many of them as
premises as there are, and reports a proof. -/
structure Verifies (s : Session) (source : Source) (premises steps : List Formula)
    (run : Run (Except ProofFailure ProofReport)) (p : Proof) : Prop where
  /-- The lines of the source give the premises and then the steps. -/
  reads : ∃ rest, s.settings.reading.Reads source (premises ++ steps) rest
  /-- The first of these formulas, as many as are asked for, are the premises. -/
  first : (premises ++ steps).take s.settings.premises = premises
  proves : (s.withMode .verify).prove source = some run
  result : run.result = .ok (.verified p)

namespace Verifies

variable {s : Session} {source : Source} {premises steps : List Formula}
  {run : Run (Except ProofFailure ProofReport)} {p : Proof}

theorem plain (h : s.Verifies source premises steps run p) : ∀ f ∈ premises ++ steps, f.Plain := by
  obtain ⟨rest, hreads⟩ := h.reads
  exact hreads.plain

/-- **The steps were checked one after the other, and announced to those who listen.** -/
theorem exists_checked (h : s.Verifies source premises steps run p) :
    ∃ announced, Checked s.system premises steps p announced ∧
      run.events = announced.filter s.audience.hears := by
  obtain ⟨ending, hends, hprove⟩ := exists_prove (s.withMode .verify) source
  obtain rfl := Option.some.inj (h.proves.symm.trans hprove)
  obtain ⟨lines, announced, state, last, hreaches, hlast⟩ := hends.exists_reaches
  obtain ⟨fs, rfl, hreached⟩ := exists_reached rfl hreaches
  cases hlast with
  | finished hline =>
      -- The run has read the formulas of the source, since there is nothing behind them.
      obtain ⟨rest, hreads⟩ := h.reads
      have hall := hreaches.reads_append rfl (.nothing (Prod.ext (Procedure.line?_eq_none hline) rfl))
      rw [List.append_nil] at hall
      have hchecked := hreached.checked
      rw [hall.formulas_unique hreads] at hchecked
      change Checked s.system ((premises ++ steps).take s.settings.premises)
        ((premises ++ steps).drop s.settings.premises) _ _ at hchecked
      rw [Formula.drop_eq_of_take_eq h.first, h.first] at hchecked
      have hproof : Except.ok (ProofReport.verified state.proof) = .ok (.verified p) := h.result
      obtain rfl := ProofReport.verified.inj (Except.ok.inj hproof)
      exact ⟨announced, hchecked, rfl⟩
  | stopped hline hturn =>
      obtain ⟨-, error, hfailed, -⟩ := course_of_stop rfl hreached hturn
      exact nomatch hfailed.symm.trans h.result

/-- The members are the steps. -/
theorem formulas_eq (h : s.Verifies source premises steps run p) : p.formulas = steps := by
  obtain ⟨announced, hchecked, -⟩ := h.exists_checked
  exact hchecked.formulas_eq

/-- With the Hilbert system, each step follows from the premises and the steps before it. -/
theorem accepted (hs : s.system = Hilbert.system) (h : s.Verifies source premises steps run p) :
    Hilbert.Accepted premises [] steps := by
  obtain ⟨announced, hchecked, -⟩ := h.exists_checked
  rw [hs] at hchecked
  exact Hilbert.exists_extend?_iff.1 ⟨p, hchecked.extend?_eq⟩

/-- A run that verifies the steps under a substitution announces the axioms again. -/
theorem exists_announced_substitute (hs : s.system = Hilbert.system)
    (h : s.Verifies source premises steps run p) {σ : Char → Formula} {source' : Source}
    {run' : Run (Except ProofFailure ProofReport)} {q : Proof}
    (h' : s.Verifies source' (premises.map (·.substitute σ)) (steps.map (·.substitute σ)) run' q) {k : Nat}
    {f : Formula} {type : Nat} (hmem : .step k f (.axiomOfType type) ∈ run.events) :
    ∃ type' ≤ type, .step k (f.substitute σ) (.axiomOfType type') ∈ run'.events := by
  obtain ⟨announced, hchecked, hevents⟩ := h.exists_checked
  obtain ⟨announced', hchecked', hevents'⟩ := h'.exists_checked
  rw [hs] at hchecked hchecked'
  rw [hevents] at hmem
  obtain ⟨hannounced, hheard⟩ := List.mem_filter.1 hmem
  obtain ⟨type', hle, hannounced'⟩ := Hilbert.exists_announced_substitute hchecked hchecked' hannounced
  refine ⟨type', hle, ?_⟩
  rw [hevents']
  exact List.mem_filter.2 ⟨hannounced', hheard⟩

end Verifies

/-- **Premises and steps that follow are verified**, with one proof in whatever lines they stand. -/
theorem exists_verifies {s : Session} (hs : s.system = Hilbert.system) {premises steps : List Formula}
    (hfirst : (premises ++ steps).take s.settings.premises = premises)
    (haccepted : Hilbert.Accepted premises [] steps) :
    ∃ p, p.formulas = steps ∧
      ∀ source rest, s.settings.reading.Reads source (premises ++ steps) rest →
        ∃ run, s.Verifies source premises steps run p := by
  obtain ⟨p, hp⟩ := (Hilbert.exists_extend?_iff (p := .empty)).2 haccepted
  refine ⟨p, Proof.formulas_of_extend? hp, ?_⟩
  intro source rest hreads
  have hextend : Proof.empty.extend? s.system ((premises ++ steps).take s.settings.premises)
      ((premises ++ steps).drop s.settings.premises) = .ok p := by
    rw [Formula.drop_eq_of_take_eq hfirst, hfirst, hs, hp]
  obtain ⟨run, hprove, hresult⟩ := exists_prove_of_reads (s := s.withMode .verify) hreads hextend
  exact ⟨run, ⟨rest, hreads⟩, hfirst, hprove, hresult⟩

/-- **A run that reports a verified proof accepts steps under premises.** -/
theorem verifies_of_result {s : Session} {source : Source} {run : Run (Except ProofFailure ProofReport)}
    {p : Proof} (hprove : (s.withMode .verify).prove source = some run)
    (hresult : run.result = .ok (.verified p)) : ∃ premises steps, s.Verifies source premises steps run p := by
  obtain ⟨fs, rest, -, hreads, -, -⟩ := exists_reads_of_prove hprove hresult
  refine ⟨fs.take s.settings.premises, fs.drop s.settings.premises, ⟨rest, ?_⟩, ?_, hprove, hresult⟩
  · rwa [List.take_append_drop]
  · rw [List.take_append_drop]

/-- **Verified steps stay verified when formulas are put in the place of letters** everywhere, in the premises and
in the steps. There are as many members as before, and they are the steps with the formulas put in. A step that
is an axiom stays one, and is announced as one, of its type or of one that is tried before it. -/
theorem verifies_substituted {s : Session} (hs : s.system = Hilbert.system) {source : Source}
    {premises steps : List Formula} {run : Run (Except ProofFailure ProofReport)} {p : Proof}
    (h : s.Verifies source premises steps run p) {σ : Char → Formula}
    (hσ : ∀ c, Formula.isPlainLetter c = true → (σ c).Plain) :
    ∃ q, q.length = p.length ∧ q.formulas = p.formulas.map (·.substitute σ) ∧
      (∃ rest, s.settings.reading.Reads
        (.ofBytes (Formula.lines s.settings.reading ((premises ++ steps).map (·.substitute σ))))
        ((premises ++ steps).map (·.substitute σ)) rest) ∧
      (∀ source' rest, s.settings.reading.Reads source' ((premises ++ steps).map (·.substitute σ)) rest →
        ∃ run', s.Verifies source' (premises.map (·.substitute σ)) (steps.map (·.substitute σ)) run' q ∧
          ∀ k f type, .step k f (.axiomOfType type) ∈ run.events →
            ∃ type' ≤ type, .step k (f.substitute σ) (.axiomOfType type') ∈ run'.events) ∧
      ∀ f type, s.system.axiomType? f = some type →
        ∃ type' ≤ type, s.system.axiomType? (f.substitute σ) = some type' := by
  have hplain : ∀ f ∈ (premises ++ steps).map (·.substitute σ), f.Plain := by
    intro f hf
    obtain ⟨g, hg, rfl⟩ := List.mem_map.1 hf
    exact (h.plain g hg).substitute hσ
  have hfirst : (premises.map (·.substitute σ) ++ steps.map (·.substitute σ)).take s.settings.premises =
      premises.map (·.substitute σ) := by
    rw [← List.map_append, ← List.map_take, h.first]
  obtain ⟨q, hformulas, hverifies⟩ := exists_verifies hs hfirst ((h.accepted hs).substitute σ)
  rw [← List.map_append] at hverifies
  rw [← h.formulas_eq] at hformulas
  refine ⟨q, ?_, hformulas, ⟨_, Notation.reads_lines hplain⟩, ?_, ?_⟩
  · rw [← q.length_formulas, hformulas, List.length_map, p.length_formulas]
  · intro source' rest hreads
    obtain ⟨run', hrun'⟩ := hverifies source' rest hreads
    exact ⟨run', hrun', fun k f type hmem => h.exists_announced_substitute hs hrun' hmem⟩
  · rw [hs]
    exact fun f type htype => Hilbert.exists_axiomType?_substitute htype σ

/-- A proof of `B` from `A ∧ B` becomes one of `A` from `A ∧ A`, and the axiom in it stays an axiom. -/
theorem verifies_substituted_conjunct :
    ∃ run p,
      Session.Verifies { system := Hilbert.system, settings := { reading := .polish, premises := 1 } }
        (.ofBytes (Formula.lines .polish [Hilbert.conj Hilbert.a Hilbert.b, Hilbert.conj Hilbert.a Hilbert.b,
          Hilbert.imp (Hilbert.conj Hilbert.a Hilbert.b) Hilbert.b, Hilbert.b]))
        [Hilbert.conj Hilbert.a Hilbert.b]
        [Hilbert.conj Hilbert.a Hilbert.b, Hilbert.imp (Hilbert.conj Hilbert.a Hilbert.b) Hilbert.b, Hilbert.b]
        run p ∧
      ∃ run' q,
        Session.Verifies { system := Hilbert.system, settings := { reading := .polish, premises := 1 } }
          (.ofBytes (Formula.lines .polish [Hilbert.conj Hilbert.a Hilbert.a, Hilbert.conj Hilbert.a Hilbert.a,
            Hilbert.imp (Hilbert.conj Hilbert.a Hilbert.a) Hilbert.a, Hilbert.a]))
          [Hilbert.conj Hilbert.a Hilbert.a]
          [Hilbert.conj Hilbert.a Hilbert.a, Hilbert.imp (Hilbert.conj Hilbert.a Hilbert.a) Hilbert.a, Hilbert.a]
          run' q ∧
        q.length = p.length ∧
        ∃ type ≤ 5,
          Hilbert.axiomType? (Hilbert.imp (Hilbert.conj Hilbert.a Hilbert.a) Hilbert.a) = some type := by
  have haccepted : Hilbert.Accepted [Hilbert.conj Hilbert.a Hilbert.b] []
      [Hilbert.conj Hilbert.a Hilbert.b, Hilbert.imp (Hilbert.conj Hilbert.a Hilbert.b) Hilbert.b, Hilbert.b] :=
    ⟨.inr (.inl (by simp)), .inl ⟨5, by decide +kernel⟩,
      .inr (.inr ⟨Hilbert.conj Hilbert.a Hilbert.b, by simp, by simp⟩), trivial⟩
  obtain ⟨p, -, hp⟩ := exists_verifies
    (s := { system := Hilbert.system, settings := { reading := .polish, premises := 1 } }) rfl rfl haccepted
  obtain ⟨run, h⟩ := hp _ _ (Notation.reads_lines (by decide))
  obtain ⟨q, hlength, -, ⟨rest, hreads⟩, hverifies, htypes⟩ :=
    verifies_substituted rfl h (σ := fun _ => Hilbert.a) fun _ _ => rfl
  obtain ⟨run', hrun', -⟩ := hverifies _ rest hreads
  refine ⟨run, p, h, run', q, hrun', hlength, ?_⟩
  exact htypes (Hilbert.imp (Hilbert.conj Hilbert.a Hilbert.b) Hilbert.b) 5 (by decide +kernel)

/-- **Verified steps can be mixed.** When two lists of steps are verified, each under premises of its own, every
list that has the steps of both, each in its order, is verified under all premises that include those of both,
in whatever order and however often. The members are the mixed steps. -/
theorem verifies_interleaved {s₁ s₂ s : Session} (hs₁ : s₁.system = Hilbert.system)
    (hs₂ : s₂.system = Hilbert.system) (hs : s.system = Hilbert.system) {source₁ source₂ : Source}
    {premises₁ premises₂ steps₁ steps₂ : List Formula} {run₁ run₂ : Run (Except ProofFailure ProofReport)}
    {p₁ p₂ : Proof} (h₁ : s₁.Verifies source₁ premises₁ steps₁ run₁ p₁)
    (h₂ : s₂.Verifies source₂ premises₂ steps₂ run₂ p₂) {steps : List Formula}
    (hsteps : Interleaving steps₁ steps₂ steps) {premises : List Formula} (hplain : ∀ f ∈ premises, f.Plain)
    (hsub₁ : premises₁ ⊆ premises) (hsub₂ : premises₂ ⊆ premises)
    (hcount : s.settings.premises = premises.length) :
    ∃ p, p.length = steps₁.length + steps₂.length ∧ p.formulas = steps ∧
      (∃ rest, s.settings.reading.Reads (.ofBytes (Formula.lines s.settings.reading (premises ++ steps)))
        (premises ++ steps) rest) ∧
      ∀ source rest, s.settings.reading.Reads source (premises ++ steps) rest →
        ∃ run, s.Verifies source premises steps run p := by
  have hall : ∀ f ∈ premises ++ steps, f.Plain := by
    refine List.forall_mem_append.2 ⟨hplain, fun f hf => ?_⟩
    rcases hsteps.mem_or_mem hf with hf | hf
    · exact h₁.plain f (List.mem_append_right _ hf)
    · exact h₂.plain f (List.mem_append_right _ hf)
  have haccepted₁ := (h₁.accepted hs₁).weaken hsub₁
  have haccepted₂ := (h₂.accepted hs₂).weaken hsub₂
  have haccepted : Hilbert.Accepted premises [] steps :=
    .interleave hsteps haccepted₁ haccepted₂ (List.nil_subset _) (List.nil_subset _)
  obtain ⟨p, hformulas, hverifies⟩ := exists_verifies hs (List.take_left' hcount.symm) haccepted
  refine ⟨p, ?_, hformulas, ⟨_, Notation.reads_lines hall⟩, hverifies⟩
  rw [← p.length_formulas, hformulas, hsteps.length_eq]

/-- A proof of `B` from `A` and `A → B` is mixed with one that restates `C`, under the three premises in another
order. -/
theorem verifies_interleaved_restatement :
    ∃ run p,
      Session.Verifies { system := Hilbert.system, settings := { reading := .reversePolish, premises := 3 } }
        (.ofBytes (Formula.lines .reversePolish
          ([Hilbert.c, Hilbert.imp Hilbert.a Hilbert.b, Hilbert.a] ++
            [Hilbert.a, Hilbert.c, Hilbert.imp Hilbert.a Hilbert.b, Hilbert.b])))
        [Hilbert.c, Hilbert.imp Hilbert.a Hilbert.b, Hilbert.a]
        [Hilbert.a, Hilbert.c, Hilbert.imp Hilbert.a Hilbert.b, Hilbert.b] run p ∧
      p.length = 3 + 1 := by
  have haccepted₁ : Hilbert.Accepted [Hilbert.a, Hilbert.imp Hilbert.a Hilbert.b] []
      [Hilbert.a, Hilbert.imp Hilbert.a Hilbert.b, Hilbert.b] :=
    ⟨.inr (.inl (by simp)), .inr (.inl (by simp)), .inr (.inr ⟨Hilbert.a, by simp, by simp⟩), trivial⟩
  have haccepted₂ : Hilbert.Accepted [Hilbert.c] [] [Hilbert.c] := ⟨.inr (.inl (by simp)), trivial⟩
  obtain ⟨p₁, -, hp₁⟩ := exists_verifies
    (s := { system := Hilbert.system, settings := { reading := .polish, premises := 2 } }) rfl rfl haccepted₁
  obtain ⟨p₂, -, hp₂⟩ := exists_verifies
    (s := { system := Hilbert.system, settings := { reading := .bracketed, premises := 1 } }) rfl rfl haccepted₂
  obtain ⟨run₁, h₁⟩ := hp₁ _ _ (Notation.reads_lines (by decide))
  obtain ⟨run₂, h₂⟩ := hp₂ _ _ (Notation.reads_lines (by decide))
  have hsub₁ : [Hilbert.a, Hilbert.imp Hilbert.a Hilbert.b] ⊆
      [Hilbert.c, Hilbert.imp Hilbert.a Hilbert.b, Hilbert.a] := by
    decide
  have hsub₂ : [Hilbert.c] ⊆ [Hilbert.c, Hilbert.imp Hilbert.a Hilbert.b, Hilbert.a] := by
    decide
  obtain ⟨p, hlength, -, ⟨rest, hreads⟩, hverifies⟩ := verifies_interleaved
    (s := { system := Hilbert.system, settings := { reading := .reversePolish, premises := 3 } })
    rfl rfl rfl h₁ h₂ (.left (.right (.left (.left .nil)))) (by decide) hsub₁ hsub₂ rfl
  obtain ⟨run, hrun⟩ := hverifies _ rest hreads
  exact ⟨run, p, hrun, hlength⟩

end Session

end PropositionalCalculus
