import PropositionalCalculus.Proofs.Proof.Marking

/-!
# The numbers of the marked members

The new number of a marked member is its rank, the number of marked members up to it. When the witnesses of
marked members are marked, `Proof.pruned` gives exactly the marked members, in order, with every witness
replaced by its rank (`pruned_eq`).
-/

set_option autoImplicit false

namespace PropositionalCalculus

/-! ## Positions behind a filter -/

section Filter

variable {α : Type} {keep : α → Bool}

/-- What is at a position behind the filter was at a position with that many kept before. -/
theorem getElem?_filter_iff {xs : List α} {r : Nat} {x : α} :
    (xs.filter keep)[r]? = some x ↔
      ∃ offset, xs[offset]? = some x ∧ keep x = true ∧ (xs.take offset).countP keep = r := by
  induction xs generalizing r with
  | nil => simp
  | cons a xs ih =>
      constructor
      · intro h
        by_cases ha : keep a = true
        · rw [List.filter_cons_of_pos ha] at h
          cases r with
          | zero =>
              obtain rfl := Option.some.inj h
              exact ⟨0, rfl, ha, rfl⟩
          | succ r =>
              obtain ⟨offset, hx, hkeep, hr⟩ := ih.1 h
              refine ⟨offset + 1, hx, hkeep, ?_⟩
              rw [List.take_succ_cons, List.countP_cons_of_pos ha, hr]
        · rw [List.filter_cons_of_neg ha] at h
          obtain ⟨offset, hx, hkeep, hr⟩ := ih.1 h
          refine ⟨offset + 1, hx, hkeep, ?_⟩
          rw [List.take_succ_cons, List.countP_cons_of_neg ha, hr]
      · rintro ⟨offset, hx, hkeep, rfl⟩
        cases offset with
        | zero =>
            obtain rfl := Option.some.inj hx
            rw [List.filter_cons_of_pos hkeep]
            rfl
        | succ offset =>
            have hrest := ih.2 ⟨offset, hx, hkeep, rfl⟩
            by_cases ha : keep a = true
            · rw [List.filter_cons_of_pos ha, List.take_succ_cons, List.countP_cons_of_pos ha]
              exact hrest
            · rw [List.filter_cons_of_neg ha, List.take_succ_cons, List.countP_cons_of_neg ha]
              exact hrest

theorem filter_take_succ_of_pos {xs : List α} {offset : Nat} {x : α} (hx : xs[offset]? = some x)
    (hkeep : keep x = true) :
    (xs.take (offset + 1)).filter keep = (xs.take offset).filter keep ++ [x] := by
  obtain ⟨hlt, rfl⟩ := List.getElem?_eq_some_iff.1 hx
  rw [List.take_succ_eq_append_getElem hlt, List.filter_append, List.filter_cons_of_pos hkeep,
    List.filter_nil]

theorem filter_take_succ_of_neg {xs : List α} {offset : Nat} {x : α} (hx : xs[offset]? = some x)
    (hkeep : ¬ keep x = true) : (xs.take (offset + 1)).filter keep = (xs.take offset).filter keep := by
  obtain ⟨hlt, rfl⟩ := List.getElem?_eq_some_iff.1 hx
  rw [List.take_succ_eq_append_getElem hlt, List.filter_append, List.filter_cons_of_neg hkeep,
    List.filter_nil, List.append_nil]

/-- **The first hit is the first hit behind the filter**, when it is kept, and what counts as a hit there
was one before. -/
theorem findIdx?_filter {xs : List α} {p q : α → Bool} {offset : Nat} {x : α}
    (h : xs.findIdx? p = some offset) (hx : xs[offset]? = some x) (hkeep : keep x = true)
    (hq : q x = true) (hqp : ∀ a, q a = true → p a = true) :
    (xs.filter keep).findIdx? q = some ((xs.take offset).countP keep) := by
  induction xs generalizing offset with
  | nil => simp at h
  | cons a xs ih =>
      rw [List.findIdx?_cons] at h
      by_cases ha : p a = true
      · rw [if_pos ha] at h
        obtain rfl := Option.some.inj h
        obtain rfl := Option.some.inj hx
        rw [List.filter_cons_of_pos hkeep, List.findIdx?_cons, if_pos hq]
        rfl
      · rw [if_neg ha] at h
        obtain ⟨before, hbefore, rfl⟩ := Option.map_eq_some_iff.1 h
        have hrest := ih hbefore hx
        by_cases hak : keep a = true
        · -- What is no hit before is none behind the filter.
          have hqa : ¬ q a = true := by
            intro hqa
            exact ha (hqp a hqa)
          rw [List.filter_cons_of_pos hak, List.findIdx?_cons, if_neg hqa, hrest, List.take_succ_cons,
            List.countP_cons_of_pos hak]
          rfl
        · rw [List.filter_cons_of_neg hak, hrest, List.take_succ_cons, List.countP_cons_of_neg hak]

end Filter

/-- The member under its new number, with new numbers for its witnesses, and without a mark. -/
def Member.renumbered (rank : Nat → Nat) (m : Member) : Member :=
  ⟨m.formula, m.witnesses.map rank, false⟩

namespace Proof

/-- The number of marked members among the first ones. -/
def rank (p : Proof) (w : Nat) : Nat :=
  (p.members.take w).countP Member.kept

section Rank

variable {p : Proof} {w : Nat}

theorem rank_succ {offset : Nat} {m : Member} (hm : p.members[offset]? = some m) (hkept : m.kept = true) :
    p.rank (offset + 1) = (p.members.take offset).countP Member.kept + 1 := by
  rw [rank, List.countP_eq_length_filter, filter_take_succ_of_pos hm hkept, List.length_append,
    List.length_singleton, List.countP_eq_length_filter]

theorem rank_length (p : Proof) : p.rank p.length = p.keptCount := by
  rw [rank, length, List.take_length, keptCount]

theorem Keeps.rank_pos (h : p.Keeps w) : 0 < p.rank w := by
  obtain ⟨m, hm, hkept⟩ := h
  obtain ⟨offset, rfl, hm⟩ := get?_eq_some_iff.1 hm
  rw [rank_succ hm hkept]
  exact Nat.succ_pos _

theorem rank_le_of_le {u : Nat} (h : u ≤ w) : p.rank u ≤ p.rank w :=
  (List.take_sublist_take_left h).countP_le

theorem rank_take {count : Nat} (h : w ≤ count) : rank ⟨p.members.take count⟩ w = p.rank w := by
  rw [rank, rank, List.take_take, Nat.min_eq_left h]

/-- The first hit among all formulas is the first one among the kept ones, when its member is kept, and
what counts as a hit there did before. -/
theorem findIdx?_keptFormulas {f g : Formula → Bool} {offset : Nat} {m : Member}
    (h : p.formulas.findIdx? f = some offset) (hm : p.get? (offset + 1) = some m) (hkept : m.kept = true)
    (hg : g m.formula = true) (hgf : ∀ x, g x = true → f x = true) :
    ∃ position, p.keptFormulas.findIdx? g = some position ∧
      p.keptFormulas[position]? = some m.formula ∧ p.rank (offset + 1) = position + 1 := by
  rw [formulas, List.findIdx?_map] at h
  refine ⟨(p.members.take offset).countP Member.kept, ?_, ?_, rank_succ hm hkept⟩
  · rw [keptFormulas, List.findIdx?_map]
    apply findIdx?_filter h hm hkept hg
    intro n
    exact hgf n.formula
  · rw [keptFormulas, List.getElem?_map, getElem?_filter_iff.2 ⟨offset, hm, hkept, rfl⟩]
    rfl

end Rank

/-- The new numbers of the members before, as far as those are marked. -/
def NumbersUpTo (p : Proof) (count : Nat) (numbers : List (Option Nat)) : Prop :=
  numbers.length = count ∧
    ∀ w, p.Keeps w → w ≤ count → (numbers[w - 1]?).join = some (p.rank w)

theorem NumbersUpTo.snoc {p : Proof} {offset : Nat} {numbers : List (Option Nat)} {number : Option Nat}
    (h : p.NumbersUpTo offset numbers) (hnumber : p.Keeps (offset + 1) → number = some (p.rank (offset + 1))) :
    p.NumbersUpTo (offset + 1) (numbers ++ [number]) := by
  obtain ⟨hlength, hold⟩ := h
  constructor
  · rw [List.length_append, hlength, List.length_singleton]
  intro w hw hle
  rcases Nat.lt_or_eq_of_le hle with hlt | rfl
  · have hpos := hw.pos
    rw [List.getElem?_append_left (by omega)]
    exact hold w hw (Nat.le_of_lt_succ hlt)
  · -- This is the number that has just been added.
    rw [Nat.add_sub_cancel, ← hlength, List.getElem?_concat_length, hlength, hnumber hw]
    rfl

/-- Looking up marked members that came before gives their ranks. -/
theorem NumbersUpTo.filterMap_eq {p : Proof} {count : Nat} {numbers : List (Option Nat)}
    (h : p.NumbersUpTo count numbers) {witnesses : List Nat}
    (hkeeps : ∀ u ∈ witnesses, p.Keeps u ∧ u ≤ count) :
    witnesses.filterMap (fun w => (numbers[w - 1]?).join) = witnesses.map p.rank := by
  induction witnesses with
  | nil => rfl
  | cons w witnesses ih =>
      obtain ⟨hw, hle⟩ := hkeeps w List.mem_cons_self
      have hrest := ih (List.forall_mem_cons.1 hkeeps).2
      rw [List.filterMap_cons, h.2 w hw hle, List.map_cons, hrest]

/-- With the numbers of the members before, `renumber` gives the marked ones of the others. -/
theorem renumber_eq {p : Proof} (hgrounded : p.Grounded) (hclosed : p.ClosedUnder p.Keeps)
    {members : List Member} {offset : Nat} {numbers : List (Option Nat)}
    (hmembers : p.members.drop offset = members) (hnumbers : p.NumbersUpTo offset numbers) :
    renumber members numbers ((p.members.take offset).countP Member.kept) =
      (members.filter Member.kept).map (Member.renumbered p.rank) := by
  -- The members before `offset` have been dealt with; the first of the others comes next.
  induction members generalizing offset numbers with
  | nil => rfl
  | cons m members ih =>
      have hm : p.members[offset]? = some m := by
        rw [← List.head?_drop, hmembers, List.head?_cons]
      have hrest : p.members.drop (offset + 1) = members := by
        rw [← List.tail_drop, hmembers, List.tail_cons]
      have hget : p.get? (offset + 1) = some m := hm
      by_cases hkept : m.kept = true
      · have hkeeps : p.Keeps (offset + 1) := ⟨m, hget, hkept⟩
        have hwitnesses : (m.witnesses.filterMap fun w => (numbers[w - 1]?).join) =
            m.witnesses.map p.rank := by
          apply hnumbers.filterMap_eq
          intro u hu
          refine ⟨hclosed (offset + 1) m hget hkeeps u hu, ?_⟩
          exact Nat.le_of_lt_succ (hgrounded (offset + 1) m hget u hu).2
        have hrank := rank_succ hm hkept
        rw [renumber, if_pos hkept, hwitnesses, List.filter_cons_of_pos hkept, List.map_cons, ← hrank]
        congr 1
        exact ih hrest (hnumbers.snoc fun _ => rfl)
      · -- A member that is left out takes no number.
        have hlost : ¬ p.Keeps (offset + 1) := by
          rintro ⟨n, hn, hnkept⟩
          obtain rfl := Option.some.inj (hget.symm.trans hn)
          exact hkept hnkept
        have hcount : (p.members.take (offset + 1)).countP Member.kept =
            (p.members.take offset).countP Member.kept := by
          rw [List.countP_eq_length_filter, filter_take_succ_of_neg hm hkept,
            List.countP_eq_length_filter]
        rw [renumber, if_neg hkept, List.filter_cons_of_neg hkept, ← hcount]
        apply ih hrest (hnumbers.snoc ?_)
        intro hkeeps
        exact absurd hkeeps hlost

/-- **What pruning gives**: the marked members with their witnesses under their new numbers. -/
theorem pruned_eq {p : Proof} (hgrounded : p.Grounded) (hclosed : p.ClosedUnder p.Keeps) :
    p.pruned = ⟨(p.members.filter Member.kept).map (Member.renumbered p.rank)⟩ := by
  have hnone : p.NumbersUpTo 0 [] := by
    refine ⟨rfl, ?_⟩
    intro w hw hle
    exact absurd hle (Nat.not_le_of_gt hw.pos)
  rw [pruned]
  congr 1
  exact renumber_eq hgrounded hclosed rfl hnone

/-! ## The pruned proof -/

/-- The marked ones among the first members under their new numbers. -/
def prunedUpTo (p : Proof) (count : Nat) : Proof :=
  ⟨((p.members.take count).filter Member.kept).map (Member.renumbered p.rank)⟩

theorem formulas_prunedUpTo (p : Proof) (count : Nat) :
    (prunedUpTo p count).formulas = keptFormulas ⟨p.members.take count⟩ :=
  List.map_map

theorem length_prunedUpTo (p : Proof) (count : Nat) : (prunedUpTo p count).length = p.rank count := by
  rw [length, prunedUpTo, List.length_map, rank, List.countP_eq_length_filter]

section Pruned

variable {p : Proof} (hgrounded : p.Grounded) (hclosed : p.ClosedUnder p.Keeps)

include hgrounded hclosed

theorem formulas_pruned : p.pruned.formulas = p.keptFormulas := by
  rw [pruned_eq hgrounded hclosed, formulas, keptFormulas, List.map_map]
  rfl

theorem length_pruned : p.pruned.length = p.keptCount := by
  rw [pruned_eq hgrounded hclosed, length, List.length_map, keptCount, List.countP_eq_length_filter]

/-- A marked member is found under its rank. -/
theorem get?_pruned {w : Nat} {m : Member} (hm : p.get? w = some m) (hkept : m.kept = true) :
    p.pruned.get? (p.rank w) = some (m.renumbered p.rank) := by
  obtain ⟨offset, rfl, hoffset⟩ := get?_eq_some_iff.1 hm
  have hfilter := getElem?_filter_iff.2 ⟨offset, hoffset, hkept, rfl⟩
  rw [rank_succ hoffset hkept, pruned_eq hgrounded hclosed, get?, List.getElem?_map, hfilter]
  rfl

/-- Nothing but marked members is found. -/
theorem exists_of_get?_pruned {r : Nat} {n : Member} (hn : p.pruned.get? r = some n) :
    ∃ w m, p.get? w = some m ∧ m.kept = true ∧ p.rank w = r ∧ n = m.renumbered p.rank := by
  obtain ⟨position, rfl, hposition⟩ := get?_eq_some_iff.1 hn
  rw [pruned_eq hgrounded hclosed, List.getElem?_map] at hposition
  obtain ⟨m, hm, rfl⟩ := Option.map_eq_some_iff.1 hposition
  obtain ⟨offset, hoffset, hkept, hcount⟩ := getElem?_filter_iff.1 hm
  exact ⟨offset + 1, m, hoffset, hkept, by rw [rank_succ hoffset hkept, hcount], rfl⟩

/-- The pruned proof is grounded, since ranks keep the order of marked members. -/
theorem grounded_pruned : p.pruned.Grounded := by
  intro r n hn v hv
  obtain ⟨w, m, hm, hkept, rfl, rfl⟩ := exists_of_get?_pruned hgrounded hclosed hn
  obtain ⟨u, hu, rfl⟩ := List.mem_map.1 hv
  have hkeeps : p.Keeps u := hclosed w m hm ⟨m, hm, hkept⟩ u hu
  have hlt := (hgrounded w m hm u hu).2
  obtain ⟨offset, rfl, hoffset⟩ := get?_eq_some_iff.1 hm
  refine ⟨hkeeps.rank_pos, ?_⟩
  rw [rank_succ hoffset hkept]
  exact Nat.lt_succ_of_le (rank_le_of_le (Nat.le_of_lt_succ hlt))

end Pruned

section Needed

variable {p : Proof} (hp : p.Grounded)

include hp

/-- What was needed before is needed after. -/
theorem keeps_rank_markNeeded_pruned {w : Nat} (h : p.markNeeded.Keeps w) :
    p.markNeeded.pruned.markNeeded.Keeps (p.markNeeded.rank w) := by
  have hgrounded := hp.markNeeded
  have hclosed := closedUnder_markNeeded hp
  have hgrounded' := grounded_pruned hgrounded hclosed
  -- The numbers whose ranks are marked after have the last one, and with a member its witnesses.
  have hpruned : p.markNeeded.pruned.ClosedUnder p.markNeeded.pruned.markNeeded.Keeps :=
    (closedUnder_markNeeded hgrounded').of_unmarked_eq (unmarked_markNeeded _).symm
  have hranks : p.markNeeded.ClosedUnder fun v => p.markNeeded.Keeps v ∧
      p.markNeeded.pruned.markNeeded.Keeps (p.markNeeded.rank v) := by
    rintro v m hm ⟨hkeeps, hmark⟩ u hu
    refine ⟨hclosed v m hm hkeeps u hu, ?_⟩
    obtain ⟨m', hm', hkept⟩ := hkeeps
    obtain rfl := Option.some.inj (hm.symm.trans hm')
    have hfound := get?_pruned hgrounded hclosed hm hkept
    exact hpruned _ _ hfound hmark _ (List.mem_map_of_mem hu)
  have hlength : 0 < p.length := by
    obtain ⟨m, hm, -⟩ := h
    have hle := le_of_get? hm
    rw [length_markNeeded] at hle
    exact Nat.lt_of_lt_of_le hle.1 hle.2
  have hlast : p.markNeeded.rank p.length = p.markNeeded.pruned.length := by
    rw [length_pruned hgrounded hclosed, ← rank_length, length_markNeeded]
  have hlength' : 0 < p.markNeeded.pruned.length := by
    rw [← hlast]
    exact (keeps_length_markNeeded hlength).rank_pos
  have hlast' : p.markNeeded.pruned.markNeeded.Keeps (p.markNeeded.rank p.length) := by
    rw [hlast]
    exact keeps_length_markNeeded hlength'
  have hall := of_keeps_markNeeded (hranks.of_unmarked_eq (unmarked_markNeeded p).symm)
    ⟨keeps_length_markNeeded hlength, hlast'⟩ h
  exact hall.2

/-- **Of a pruned proof every member is needed.** -/
theorem keptCount_markNeeded_pruned :
    p.markNeeded.pruned.markNeeded.keptCount = p.markNeeded.pruned.markNeeded.length := by
  apply List.countP_eq_length.2
  intro m hm
  obtain ⟨offset, hoffset⟩ := List.mem_iff_getElem?.1 hm
  have hget : p.markNeeded.pruned.markNeeded.get? (offset + 1) = some m := hoffset
  obtain ⟨n, hn, -⟩ := exists_get?_of_unmarked_eq (unmarked_markNeeded _) hget
  obtain ⟨w, k, hk, hkept, hrank, -⟩ :=
    exists_of_get?_pruned hp.markNeeded (closedUnder_markNeeded hp) hn
  obtain ⟨m', hm', hkept'⟩ := keeps_rank_markNeeded_pruned hp ⟨k, hk, hkept⟩
  rw [hrank, hget] at hm'
  obtain rfl := Option.some.inj hm'
  exact hkept'

end Needed

end Proof

end PropositionalCalculus
