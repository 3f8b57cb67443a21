import PropositionalCalculus.Proof.Pruning
import PropositionalCalculus.Proofs.Proof.Basic

/-!
# Which members are marked

`Proof.markFrom` works through a queue of numbers. It touches nothing but marks, takes no mark away, and leaves
no member without a mark that is in the queue or a witness of a marked one. Nor does it mark more: whatever
set of numbers has those of the queue, and with a member its witnesses, has all that are marked.
For `Proof.markNeeded`, which starts from the last member, this says that the marked members are the least
such set (`keeps_length_markNeeded`, `closedUnder_markNeeded`, `of_keeps_markNeeded`).
-/

set_option autoImplicit false

namespace PropositionalCalculus

@[simp] theorem Member.unmarked_marked (m : Member) : m.marked.unmarked = m.unmarked := rfl

namespace Proof

/-! ## Marked members -/

/-- The number is that of a marked member. -/
def Keeps (p : Proof) (w : Nat) : Prop :=
  ∃ m, p.get? w = some m ∧ m.kept = true

theorem Keeps.pos {p : Proof} {w : Nat} (h : p.Keeps w) : 0 < w := by
  obtain ⟨m, hm, -⟩ := h
  exact (le_of_get? hm).1

theorem Keeps.take {p : Proof} {w count : Nat} (h : p.Keeps w) (hle : w ≤ count) :
    Keeps ⟨p.members.take count⟩ w := by
  obtain ⟨m, hm, hkept⟩ := h
  obtain ⟨offset, rfl, hm⟩ := get?_eq_some_iff.1 hm
  exact ⟨m, (List.getElem?_take_of_lt hle).trans hm, hkept⟩

/-- The number is not that of a member without a mark. -/
def Settled (p : Proof) (w : Nat) : Prop :=
  ∀ m, p.get? w = some m → m.kept = true

/-- With a member, the set has its witnesses. -/
def ClosedUnder (p : Proof) (P : Nat → Prop) : Prop :=
  ∀ w m, p.get? w = some m → P w → ∀ u ∈ m.witnesses, P u

theorem settled_zero {p : Proof} : p.Settled 0 := by
  intro m hm
  simp [get?] at hm

theorem settled_of_none {p : Proof} {w : Nat} (h : p.get? w = none) : p.Settled w := by
  intro m hm
  simp [h] at hm

theorem settled_of_kept {p : Proof} {w : Nat} {m : Member} (h : p.get? w = some m) (hm : m.kept = true) :
    p.Settled w := by
  intro n hn
  rw [h] at hn
  obtain rfl := Option.some.inj hn
  exact hm

@[simp] theorem get?_unmarked (p : Proof) (w : Nat) :
    p.unmarked.get? w = (p.get? w).map Member.unmarked := by
  cases w with
  | zero => rfl
  | succ offset => exact List.getElem?_map

/-! ## The queue -/

section Queue

variable {members : List Member} {queue : List Nat}

/-- A member that gets its mark. -/
theorem get?_set {offset : Nat} {m : Member} (h : members[offset]? = some m) (w : Nat) :
    get? ⟨members.set offset m.marked⟩ w =
      if w = offset + 1 then some m.marked else get? ⟨members⟩ w := by
  cases w with
  | zero => rfl
  | succ other =>
      obtain ⟨hlt, -⟩ := List.getElem?_eq_some_iff.1 h
      by_cases hsame : other = offset
      · subst hsame
        rw [if_pos rfl]
        exact List.getElem?_set_self hlt
      · have hne : other + 1 ≠ offset + 1 := by
          intro heq
          exact hsame (Nat.succ.inj heq)
        rw [if_neg hne]
        exact List.getElem?_set_ne (Ne.symm hsame)

theorem settled_set {offset : Nat} {m : Member} (h : members[offset]? = some m) {w : Nat} :
    Settled ⟨members.set offset m.marked⟩ w ↔ w = offset + 1 ∨ Settled ⟨members⟩ w := by
  constructor
  · intro hw
    by_cases hsame : w = offset + 1
    · exact Or.inl hsame
    · right
      intro m' hm'
      exact hw m' (by rw [get?_set h, if_neg hsame, hm'])
  · intro hw m' hm'
    rw [get?_set h] at hm'
    split at hm'
    · obtain rfl := Option.some.inj hm'
      rfl
    · rename_i hne
      exact hw.resolve_left hne m' hm'

/-- **Nothing but marks changes.** -/
theorem map_unmarked_markFrom (members : List Member) (queue : List Nat) :
    (markFrom members queue).map Member.unmarked = members.map Member.unmarked := by
  fun_induction markFrom members queue with
  | case1 members => rfl
  | case2 members queue ih => exact ih
  | case3 members offset queue found ih => exact ih
  | case4 members offset queue m found kept ih => exact ih
  | case5 members offset queue m found kept ih =>
      have hsame : (members.map Member.unmarked)[offset]? = some m.unmarked := by
        rw [List.getElem?_map, found]
        rfl
      -- The member that gets its mark is the same without it.
      obtain ⟨hlt, hm⟩ := List.getElem?_eq_some_iff.1 hsame
      rw [ih, List.map_set, Member.unmarked_marked, ← hm, List.set_getElem_self]

/-- No mark is taken away. -/
theorem Settled.markFrom {w : Nat} (h : Settled ⟨members⟩ w) (queue : List Nat) :
    Settled ⟨markFrom members queue⟩ w := by
  fun_induction Proof.markFrom members queue with
  | case1 members => exact h
  | case2 members queue ih => exact ih h
  | case3 members offset queue found ih => exact ih h
  | case4 members offset queue m found kept ih => exact ih h
  | case5 members offset queue m found kept ih => exact ih ((settled_set found).2 (Or.inr h))

/-- Every member of the queue is marked in the end. -/
theorem settled_markFrom {w : Nat} (hw : w ∈ queue) : Settled ⟨markFrom members queue⟩ w := by
  fun_induction markFrom members queue with
  | case1 members => exact absurd hw List.not_mem_nil
  | case2 members queue ih =>
      rcases List.mem_cons.1 hw with rfl | hw
      · exact settled_zero.markFrom queue
      · exact ih hw
  | case3 members offset queue found ih =>
      rcases List.mem_cons.1 hw with rfl | hw
      · have hsettled : Settled ⟨members⟩ (offset + 1) := settled_of_none found
        exact hsettled.markFrom queue
      · exact ih hw
  | case4 members offset queue m found kept ih =>
      rcases List.mem_cons.1 hw with rfl | hw
      · have hsettled : Settled ⟨members⟩ (offset + 1) := settled_of_kept found kept
        exact hsettled.markFrom queue
      · exact ih hw
  | case5 members offset queue m found kept ih =>
      rcases List.mem_cons.1 hw with rfl | hw
      · exact Settled.markFrom ((settled_set found).2 (Or.inl rfl)) _
      · exact ih (List.mem_append_left _ hw)

/-- Every witness of a marked member is settled or in the queue. -/
def Queued (members : List Member) (queue : List Nat) : Prop :=
  ∀ w m, get? ⟨members⟩ w = some m → m.kept = true →
    ∀ u ∈ m.witnesses, u ∈ queue ∨ Settled ⟨members⟩ u

/-- A number may leave the queue when it is settled. -/
theorem Queued.tail {w : Nat} (h : Queued members (w :: queue)) (hw : Settled ⟨members⟩ w) :
    Queued members queue := by
  intro v m hm hkept u hu
  rcases h v m hm hkept u hu with hmem | hsettled
  · rcases List.mem_cons.1 hmem with rfl | hmem
    · exact Or.inr hw
    · exact Or.inl hmem
  · exact Or.inr hsettled

/-- When a member gets its mark, its witnesses enter the queue. -/
theorem Queued.set {offset : Nat} {m : Member} (h : Queued members ((offset + 1) :: queue))
    (found : members[offset]? = some m) :
    Queued (members.set offset m.marked) (queue ++ m.witnesses) := by
  intro v m' hm' hkept u hu
  rw [settled_set found]
  rw [get?_set found] at hm'
  split at hm'
  · -- The witnesses of the member itself have just entered.
    obtain rfl := Option.some.inj hm'
    exact Or.inl (List.mem_append_right queue hu)
  · rcases h v m' hm' hkept u hu with hmem | hsettled
    · rcases List.mem_cons.1 hmem with rfl | hmem
      · exact Or.inr (Or.inl rfl)
      · exact Or.inl (List.mem_append_left _ hmem)
    · exact Or.inr (Or.inr hsettled)

/-- **No witness of a marked member is left without a mark.** -/
theorem Queued.markFrom (h : Queued members queue) : Queued (markFrom members queue) [] := by
  -- Each turn keeps the invariant, and the last one finds the queue empty.
  fun_induction Proof.markFrom members queue with
  | case1 members => exact h
  | case2 members queue ih => exact ih (h.tail settled_zero)
  | case3 members offset queue found ih => exact ih (h.tail (settled_of_none found))
  | case4 members offset queue m found kept ih => exact ih (h.tail (settled_of_kept found kept))
  | case5 members offset queue m found kept ih => exact ih (h.set found)

/-- **Only what has to be is marked**: every set that has the queue and the members marked at the beginning,
and with a member its witnesses, has all that are marked. -/
theorem of_keeps_markFrom {P : Nat → Prop} (hclosed : ClosedUnder ⟨members⟩ P) (hqueue : ∀ w ∈ queue, P w)
    (hkept : ∀ w, Keeps ⟨members⟩ w → P w) : ∀ w, Keeps ⟨markFrom members queue⟩ w → P w := by
  fun_induction markFrom members queue with
  | case1 members => exact hkept
  | case2 members queue ih => exact ih hclosed (List.forall_mem_cons.1 hqueue).2 hkept
  | case3 members offset queue found ih => exact ih hclosed (List.forall_mem_cons.1 hqueue).2 hkept
  | case4 members offset queue m found kept ih =>
      exact ih hclosed (List.forall_mem_cons.1 hqueue).2 hkept
  | case5 members offset queue m found kept ih =>
      have hoffset : P (offset + 1) := hqueue _ List.mem_cons_self
      apply ih
      · intro w m' hm' hw
        rw [get?_set found] at hm'
        split at hm'
        · obtain rfl := Option.some.inj hm'
          exact hclosed (offset + 1) m found hoffset
        · exact hclosed w m' hm' hw
      · -- The set has the member, so it has the witnesses that enter the queue.
        intro w hw
        rcases List.mem_append.1 hw with hw | hw
        · exact hqueue w (List.mem_cons_of_mem _ hw)
        · exact hclosed (offset + 1) m found hoffset w hw
      · rintro w ⟨m', hm', hmark⟩
        rw [get?_set found] at hm'
        split at hm'
        · rename_i hsame
          exact hsame ▸ hoffset
        · exact hkept w ⟨m', hm', hmark⟩

end Queue

/-! ## What the last member needs -/

section Needed

variable {p : Proof} {w : Nat}

theorem not_keeps_unmarked : ¬ p.unmarked.Keeps w := by
  rintro ⟨m, hm, hkept⟩
  rw [get?_unmarked] at hm
  obtain ⟨m', -, rfl⟩ := Option.map_eq_some_iff.1 hm
  exact nomatch hkept

theorem unmarked_markNeeded (p : Proof) : p.markNeeded.unmarked = p.unmarked := by
  rw [unmarked, markNeeded, map_unmarked_markFrom, unmarked, List.map_map]
  rfl

/-- Marking changes neither a formula nor a witness. -/
theorem exists_get?_of_unmarked_eq {q : Proof} (h : q.unmarked = p.unmarked) {m : Member}
    (hm : q.get? w = some m) :
    ∃ n, p.get? w = some n ∧ n.formula = m.formula ∧ n.witnesses = m.witnesses := by
  have hsame : (p.get? w).map Member.unmarked = some m.unmarked := by
    rw [← get?_unmarked, ← h, get?_unmarked, hm]
    rfl
  obtain ⟨n, hn, hnm⟩ := Option.map_eq_some_iff.1 hsame
  obtain ⟨hformula, hwitnesses, -⟩ := Member.mk.inj hnm
  exact ⟨n, hn, hformula, hwitnesses⟩

/-- Which sets are closed does not depend on marks. -/
theorem ClosedUnder.of_unmarked_eq {q : Proof} {P : Nat → Prop} (h : q.unmarked = p.unmarked)
    (hp : p.ClosedUnder P) : q.ClosedUnder P := by
  intro w m hm hw u hu
  obtain ⟨n, hn, -, hwitnesses⟩ := exists_get?_of_unmarked_eq h hm
  exact hp w n hn hw u (hwitnesses ▸ hu)

theorem formulas_unmarked (p : Proof) : p.unmarked.formulas = p.formulas :=
  List.map_map

theorem formulas_markNeeded (p : Proof) : p.markNeeded.formulas = p.formulas := by
  rw [← formulas_unmarked, unmarked_markNeeded, formulas_unmarked]

theorem length_markNeeded (p : Proof) : p.markNeeded.length = p.length := by
  have h := congrArg List.length (formulas_markNeeded p)
  rwa [formulas, formulas, List.length_map, List.length_map] at h

/-- Whether a proof is grounded does not depend on marks. -/
theorem Grounded.of_unmarked_eq {q : Proof} (h : q.unmarked = p.unmarked) (hp : p.Grounded) : q.Grounded := by
  intro w m hm u hu
  obtain ⟨n, hn, -, hwitnesses⟩ := exists_get?_of_unmarked_eq h hm
  exact hp w n hn u (hwitnesses ▸ hu)

theorem Grounded.markNeeded (hp : p.Grounded) : p.markNeeded.Grounded :=
  hp.of_unmarked_eq (unmarked_markNeeded p)

/-- **The last member is marked.** -/
theorem keeps_length_markNeeded (h : 0 < p.length) : p.markNeeded.Keeps p.length := by
  obtain ⟨m, hm⟩ := exists_get? (p := p.markNeeded) h (Nat.le_of_eq (length_markNeeded p).symm)
  have hsettled : p.markNeeded.Settled p.length := settled_markFrom (List.mem_singleton_self _)
  exact ⟨m, hm, hsettled m hm⟩

/-- A witness of a marked member is not the number of a member without a mark. -/
theorem settled_of_mem_witnesses {m : Member} (hm : p.markNeeded.get? w = some m) (hkept : m.kept = true)
    {u : Nat} (hu : u ∈ m.witnesses) : p.markNeeded.Settled u := by
  have hqueued : Queued p.unmarked.members [p.length] := by
    intro v n hn hmark
    exact absurd ⟨n, hn, hmark⟩ not_keeps_unmarked
  exact (hqueued.markFrom w m hm hkept u hu).resolve_left List.not_mem_nil

/-- **The witnesses of a marked member are marked.** -/
theorem closedUnder_markNeeded (hp : p.Grounded) : p.markNeeded.ClosedUnder p.markNeeded.Keeps := by
  rintro w m hm ⟨m', hm', hkept⟩ u hu
  obtain rfl := Option.some.inj (hm.symm.trans hm')
  have hsettled : p.markNeeded.Settled u := settled_of_mem_witnesses hm hkept hu
  -- The number of an earlier member is that of a member.
  obtain ⟨n, hn, -, hwitnesses⟩ := exists_get?_of_unmarked_eq (unmarked_markNeeded p) hm
  obtain ⟨hpos, hlt⟩ := hp w n hn u (hwitnesses ▸ hu)
  have hle : u ≤ p.markNeeded.length := Nat.le_trans (Nat.le_of_lt hlt) (le_of_get? hm).2
  obtain ⟨k, hk⟩ := exists_get? hpos hle
  exact ⟨k, hk, hsettled k hk⟩

/-- **The marked members are the fewest possible.** -/
theorem of_keeps_markNeeded {P : Nat → Prop} (hclosed : p.ClosedUnder P) (hlast : P p.length)
    (h : p.markNeeded.Keeps w) : P w := by
  have hunmarked : p.unmarked.unmarked = p.unmarked := congrArg Proof.mk List.map_map
  have hqueue : ∀ v ∈ [p.length], P v := by
    intro v hv
    exact List.mem_singleton.1 hv ▸ hlast
  have hnone : ∀ v, p.unmarked.Keeps v → P v := by
    intro v hv
    exact absurd hv not_keeps_unmarked
  exact of_keeps_markFrom (hclosed.of_unmarked_eq hunmarked) hqueue hnone w h

end Needed

end Proof

end PropositionalCalculus
