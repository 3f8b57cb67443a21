import PropositionalCalculus.Proofs.Proof.Renumbering

/-!
# Proofs under editing

A proof is built from the empty one by pushing members, marking the needed ones, pruning, and copying, in any
order. However it was edited, it is coherent (`coherent_edited`): its witnesses are earlier members, and the
witnesses of marked members are marked. A mark may be old, for the members pushed later have none and an
earlier member never loses a witness.

So pruning never drops a witness (`pruned_edited`). When it follows marking, it gives a proof of which every
member is needed, and marking and pruning that one again changes nothing (`optimize_reduced_edited`).
-/

set_option autoImplicit false

namespace PropositionalCalculus

/-- The formula built again from the list of its nodes. If the nodes made up no formula, a letter would stand
in for it. -/
def Formula.copy (f : Formula) : Formula :=
  (ofPostorder? f.postorder).getD (.letter 'A')

@[simp] theorem Formula.copy_eq (f : Formula) : f.copy = f := by
  rw [copy, ofPostorder?_postorder, Option.getD_some]

namespace Proof

/-! ## Edits -/

/-- The proof built again member by member. -/
def copy (p : Proof) : Proof :=
  ⟨p.members.map fun m => { m with formula := m.formula.copy }⟩

theorem copy_eq (p : Proof) : p.copy = p := by
  simp only [copy, Formula.copy_eq, List.map_id_fun', id_eq]

/-- Something that is done to a proof. Whoever goes on with the original after copying it has the same edits
without the copy. -/
inductive Edit where
  | push (f : Formula) (witnesses : List Nat)
  | optimize
  | prune
  | copy

/-- The proof after an edit. A member that is refused leaves it as it was. -/
def edit (p : Proof) : Edit → Proof
  | .push f witnesses =>
      match p.push? f witnesses with
      | .ok q => q
      | .error _ => p
  | .optimize => p.optimize.2
  | .prune => p.pruned
  | .copy => p.copy

/-- What a sequence of edits makes of the empty proof. -/
def edited (edits : List Edit) : Proof :=
  edits.foldl edit empty

theorem edited_snoc (edits : List Edit) (e : Edit) : edited (edits ++ [e]) = (edited edits).edit e := by
  rw [edited, List.foldl_append]
  rfl

theorem edit_optimize (p : Proof) : p.edit .optimize = p.markNeeded := by
  rw [edit, optimize]
  split <;> rfl

/-! ## What every edit preserves -/

/-- Witnesses are earlier members, and those of marked members are marked. -/
structure Coherent (p : Proof) : Prop where
  grounded : p.Grounded
  closed : p.ClosedUnder p.Keeps

/-- Without marks there is nothing to be marked. -/
theorem closedUnder_of_not_keeps {p : Proof} (h : ∀ w, ¬ p.Keeps w) : p.ClosedUnder p.Keeps := by
  intro w m _ hw
  exact absurd hw (h w)

/-- A number is kept in a longer proof when it was before, or when the new member has it and is marked. -/
theorem keeps_snoc_iff {p : Proof} {m : Member} {w : Nat} :
    Keeps ⟨p.members ++ [m]⟩ w ↔ p.Keeps w ∨ (w = p.length + 1 ∧ m.kept = true) := by
  constructor
  · rintro ⟨n, hn, hkept⟩
    obtain ⟨offset, rfl, hoffset⟩ := get?_eq_some_iff.1 hn
    rcases getElem?_snoc hoffset with hold | ⟨rfl, rfl⟩
    · exact Or.inl ⟨n, hold, hkept⟩
    · exact Or.inr ⟨rfl, hkept⟩
  · rintro (⟨n, hn, hkept⟩ | ⟨rfl, hkept⟩)
    · obtain ⟨offset, rfl, hoffset⟩ := get?_eq_some_iff.1 hn
      have hlt : offset < p.members.length := (List.getElem?_eq_some_iff.1 hoffset).1
      exact ⟨n, (List.getElem?_append_left hlt).trans hoffset, hkept⟩
    · exact ⟨m, List.getElem?_concat_length, hkept⟩

theorem coherent_empty : empty.Coherent := by
  refine ⟨grounded_empty, closedUnder_of_not_keeps ?_⟩
  rintro w ⟨m, hm, -⟩
  have hle := le_of_get? hm
  exact absurd (Nat.lt_of_lt_of_le hle.1 hle.2) (Nat.lt_irrefl 0)

/-- A member that is pushed has no mark, so its witnesses need none. -/
theorem Coherent.push {p q : Proof} (hp : p.Coherent) {f : Formula} {witnesses : List Nat}
    (h : p.push? f witnesses = .ok q) : q.Coherent := by
  refine ⟨hp.grounded.push h, ?_⟩
  obtain ⟨-, rfl⟩ := push?_eq_ok_iff.1 h
  intro w m hm hw u hu
  rw [keeps_snoc_iff] at hw ⊢
  rcases hw with hw | ⟨-, hkept⟩
  · -- The member was marked before, and its witnesses were marked with it.
    obtain ⟨n, hn, -⟩ := id hw
    obtain ⟨offset, rfl, hoffset⟩ := get?_eq_some_iff.1 hn
    have hlt : offset < p.members.length := (List.getElem?_eq_some_iff.1 hoffset).1
    have hold : p.get? (offset + 1) = some m := (List.getElem?_append_left hlt).symm.trans hm
    exact Or.inl (hp.closed (offset + 1) m hold hw u hu)
  · exact absurd hkept Bool.false_ne_true

theorem coherent_markNeeded {p : Proof} (hp : p.Grounded) : p.markNeeded.Coherent :=
  ⟨hp.markNeeded, closedUnder_markNeeded hp⟩

/-- A pruned proof has no marks. -/
theorem Coherent.pruned {p : Proof} (hp : p.Coherent) : p.pruned.Coherent := by
  refine ⟨grounded_pruned hp.grounded hp.closed, closedUnder_of_not_keeps ?_⟩
  rintro w ⟨n, hn, hkept⟩
  obtain ⟨-, m, -, -, -, rfl⟩ := exists_of_get?_pruned hp.grounded hp.closed hn
  exact absurd hkept Bool.false_ne_true

/-- **Every edit leaves a coherent proof coherent.** -/
theorem Coherent.edit {p : Proof} (hp : p.Coherent) (e : Edit) : (p.edit e).Coherent := by
  cases e with
  | push f witnesses =>
      rw [Proof.edit]
      split
      · rename_i q hpush
        exact hp.push hpush
      · exact hp
  | optimize =>
      rw [edit_optimize]
      exact coherent_markNeeded hp.grounded
  | prune => exact hp.pruned
  | copy =>
      rw [Proof.edit, copy_eq]
      exact hp

/-- What every edit preserves, any number of edits preserves. -/
theorem Coherent.foldl_edit {p : Proof} (hp : p.Coherent) (edits : List Edit) :
    (edits.foldl Proof.edit p).Coherent := by
  induction edits generalizing p with
  | nil => exact hp
  | cons e edits ih =>
      rw [List.foldl_cons]
      exact ih (hp.edit e)

/-- **However a proof was edited, it is coherent.** -/
theorem coherent_edited (edits : List Edit) : (edited edits).Coherent :=
  coherent_empty.foldl_edit edits

/-! ## What pruning keeps -/

/-- A witness of a marked member keeps its formula under its new number. -/
theorem Coherent.formula?_pruned {p : Proof} (hp : p.Coherent) {k : Nat} {m : Member}
    (hm : p.get? k = some m) (hkept : m.kept = true) {w : Nat} (hw : w ∈ m.witnesses) :
    ∃ f, p.formula? w = some f ∧ p.pruned.formula? (p.rank w) = some f := by
  obtain ⟨n, hn, hnkept⟩ := hp.closed k m hm ⟨m, hm, hkept⟩ w hw
  refine ⟨n.formula, ?_, ?_⟩
  · rw [formula?, hn]
    rfl
  · rw [formula?, get?_pruned hp.grounded hp.closed hn hnkept]
    rfl

/-- **Pruning drops no witness, however the proof was edited.** Witnesses are earlier members, and those of
marked members are marked. A member is refused for a witness that is no member, and then nothing happens. The
pruned proof has exactly the marked members, in order and without marks, each with all its witnesses in order; the
new number of a witness is the number of marked members up to it, and the member with that number has the formula
of the witness. -/
theorem pruned_edited (edits : List Edit) :
    (∀ k m, (edited edits).get? k = some m → ∀ w ∈ m.witnesses, 0 < w ∧ w < k) ∧
      (∀ k m, (edited edits).get? k = some m → m.kept = true →
        ∀ w ∈ m.witnesses, ∃ n, (edited edits).get? w = some n ∧ n.kept = true) ∧
      (∀ f witnesses error, (edited edits).push? f witnesses = .error error →
        (∃ w ∈ witnesses, (w = 0 ∨ (edited edits).length < w) ∧ error = .unknownWitness w) ∧
          edited (edits ++ [.push f witnesses]) = edited edits) ∧
      (edited edits).pruned.members = ((edited edits).members.filter Member.kept).map
        (fun m => ⟨m.formula, m.witnesses.map (edited edits).rank, false⟩) ∧
      (∀ k m, (edited edits).get? k = some m → m.kept = true → ∀ w ∈ m.witnesses,
        ∃ f, (edited edits).formula? w = some f ∧
          (edited edits).pruned.formula? ((edited edits).rank w) = some f) := by
  have hcoherent := coherent_edited edits
  refine ⟨hcoherent.grounded, ?_, ?_, ?_, ?_⟩
  · intro k m hm hkept
    exact hcoherent.closed k m hm ⟨m, hm, hkept⟩
  · intro f witnesses error herror
    refine ⟨exists_of_push?_eq_error herror, ?_⟩
    rw [edited_snoc, edit, herror]
  · rw [pruned_eq hcoherent.grounded hcoherent.closed]
    rfl
  · intro k m hm hkept w hw
    exact hcoherent.formula?_pruned hm hkept hw

-- The marks are older than the last member, which has none although it needs the others.
example :
    edited [.push (.letter 'A') [], .push (.letter 'B') [], .push (.letter 'C') [1], .optimize,
      .push (.letter 'D') [3, 2], .prune] = ⟨[⟨.letter 'A', [], false⟩, ⟨.letter 'C', [1], false⟩]⟩ := by
  decide +kernel

/-! ## Marking and pruning twice -/

/-- The proof of the members that the last one needs. -/
def reduced (p : Proof) : Proof := p.optimize.2.pruned

theorem reduced_eq (p : Proof) : p.reduced = p.markNeeded.pruned := by
  rw [reduced, ← edit_optimize]
  rfl

section AllKept

variable {p : Proof} (hall : ∀ m ∈ p.members, m.kept = true)

include hall

theorem keptFormulas_of_all_kept : p.keptFormulas = p.formulas := by
  rw [keptFormulas, List.filter_eq_self.2 hall, formulas]

/-- When all members are marked, every member is its own new number. -/
theorem rank_of_all_kept {w : Nat} (hw : w ≤ p.length) : p.rank w = w := by
  have hcount : (p.members.take w).countP Member.kept = (p.members.take w).length := by
    apply List.countP_eq_length.2
    intro m hm
    exact hall m (List.mem_of_mem_take hm)
  rw [rank, hcount, List.length_take]
  exact Nat.min_eq_left hw

theorem keeps_of_all_kept {w : Nat} (hpos : 0 < w) (hle : w ≤ p.length) : p.Keeps w := by
  obtain ⟨m, hm⟩ := exists_get? hpos hle
  obtain ⟨offset, -, hoffset⟩ := get?_eq_some_iff.1 hm
  exact ⟨m, hm, hall m (List.mem_of_getElem? hoffset)⟩

/-- **When all members are marked, pruning only takes the marks away.** -/
theorem pruned_of_all_kept (hp : p.Grounded) : p.pruned = p.unmarked := by
  have hwitness : ∀ k m, p.get? k = some m → ∀ u ∈ m.witnesses, 0 < u ∧ u ≤ p.length := by
    intro k m hm u hu
    obtain ⟨hpos, hlt⟩ := hp k m hm u hu
    exact ⟨hpos, Nat.le_trans (Nat.le_of_lt hlt) (le_of_get? hm).2⟩
  have hclosed : p.ClosedUnder p.Keeps := by
    intro k m hm _ u hu
    obtain ⟨hpos, hle⟩ := hwitness k m hm u hu
    exact keeps_of_all_kept hall hpos hle
  rw [pruned_eq hp hclosed, List.filter_eq_self.2 hall, unmarked]
  congr 1
  apply List.map_congr_left
  intro m hm
  obtain ⟨offset, hoffset⟩ := List.mem_iff_getElem?.1 hm
  have hranks : ∀ u ∈ m.witnesses, p.rank u = id u := by
    intro u hu
    exact rank_of_all_kept hall (hwitness (offset + 1) m hoffset u hu).2
  rw [Member.renumbered, List.map_congr_left hranks, List.map_id, Member.unmarked]

end AllKept

/-- A pruned proof has no marks to take away. -/
theorem Coherent.unmarked_pruned {p : Proof} (hp : p.Coherent) : p.pruned.unmarked = p.pruned := by
  rw [pruned_eq hp.grounded hp.closed, unmarked, List.map_map]
  rfl

/-- **Marking and pruning twice is marking and pruning once**, however the proof was edited: of the pruned proof
every member is needed and gets its mark, its marked formulas are the ones that were marked before, and pruning it
again gives it back, with the same formulas and the same witnesses. -/
theorem optimize_reduced_edited (edits : List Edit) :
    (edited edits).reduced.optimize.1 = .error .alreadyOptimal ∧
      (∀ m ∈ (edited edits).reduced.optimize.2.members, m.kept = true) ∧
      (edited edits).reduced.optimize.2.keptFormulas = (edited edits).optimize.2.keptFormulas ∧
      (edited edits).reduced.optimize.2.pruned = (edited edits).reduced := by
  have hgrounded := (coherent_edited edits).grounded
  have hmarked := coherent_markNeeded hgrounded
  have hcount := keptCount_markNeeded_pruned hgrounded
  have hoptimize : ∀ p : Proof, p.optimize.2 = p.markNeeded := edit_optimize
  rw [hoptimize, hoptimize, reduced_eq]
  have hall : ∀ m ∈ (edited edits).markNeeded.pruned.markNeeded.members, m.kept = true :=
    List.countP_eq_length.1 hcount
  refine ⟨?_, hall, ?_, ?_⟩
  · rw [optimize, if_pos hcount]
  · rw [keptFormulas_of_all_kept hall, formulas_markNeeded,
      formulas_pruned hmarked.grounded hmarked.closed]
  · rw [pruned_of_all_kept hall hmarked.pruned.grounded.markNeeded, unmarked_markNeeded,
      hmarked.unmarked_pruned]

end Proof

end PropositionalCalculus
