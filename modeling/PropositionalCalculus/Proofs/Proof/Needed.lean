import Mathlib.Logic.Relation
import PropositionalCalculus.Proofs.Proof.Editing

/-!
# What the last member needs

A member needs its witnesses, and a proof needs all members that are reached from its last one in this way
(`Proof.Needed`). The marks that optimizing sets are on these members and on no others (`kept_iff_needed`), whatever
the proof is and whatever marks it has from before. In a grounded proof they are the least set of numbers that has
the last member and is closed under witnesses (`leastClosed_markNeeded`).

The loop behind this takes one number from its queue in each turn. A number enters the queue at the beginning or
as a witness of a member that has just got its mark, so the loop ends, after as many turns as the marked members have
witnesses, and one (`Drains.turns_add`). All of this is put together for proofs that were edited in any way
(`optimize_marks_needed_edited`).
-/

set_option autoImplicit false

namespace PropositionalCalculus.Proof

/-! ## Turns of the loop -/

/-- The witnesses of the marked members, member by member. -/
def keptWitnesses (members : List Member) : List Nat :=
  (members.filter Member.kept).flatMap Member.witnesses

/-- A member that gets its mark adds its witnesses. -/
theorem length_keptWitnesses_set {members : List Member} {offset : Nat} {m : Member}
    (at_offset : members[offset]? = some m) (not_kept : m.kept = false) :
    (keptWitnesses (members.set offset m.marked)).length =
      (keptWitnesses members).length + m.witnesses.length := by
  induction members generalizing offset with
  | nil => simp at at_offset
  | cons first rest ih =>
      cases offset with
      | zero =>
          obtain rfl := Option.some.inj at_offset
          simp [keptWitnesses, Member.marked, not_kept, Nat.add_comm]
      | succ offset =>
          have hrest := ih (by simpa using at_offset : rest[offset]? = some m)
          simp only [keptWitnesses] at hrest
          cases hfirst : first.kept with
          | true => simp [keptWitnesses, hfirst, hrest, Nat.add_assoc]
          | false => simp [keptWitnesses, hfirst, hrest]

/-- Working through the queue takes this many turns and makes these members of the given ones. In each turn the
first number leaves the queue; if it is that of a member without a mark, the member gets one, and its witnesses go
to the end of the queue. -/
inductive Drains : List Member → List Nat → Nat → List Member → Prop where
  | done {members : List Member} : Drains members [] 0 members
  | pass {members result : List Member} {queue : List Nat} {w turns : Nat} :
      Settled ⟨members⟩ w → Drains members queue turns result → Drains members (w :: queue) (turns + 1) result
  | mark {members result : List Member} {queue : List Nat} {offset turns : Nat} {m : Member} :
      members[offset]? = some m → m.kept = false →
        Drains (members.set offset m.marked) (queue ++ m.witnesses) turns result →
          Drains members ((offset + 1) :: queue) (turns + 1) result

/-- **The loop ends.** -/
theorem exists_drains (members : List Member) (queue : List Nat) :
    ∃ turns, Drains members queue turns (markFrom members queue) := by
  fun_induction markFrom members queue with
  | case1 members => exact ⟨0, .done⟩
  | case2 members queue ih =>
      obtain ⟨turns, hturns⟩ := ih
      exact ⟨turns + 1, .pass settled_zero hturns⟩
  | case3 members offset queue found ih =>
      obtain ⟨turns, hturns⟩ := ih
      have hsettled : Settled ⟨members⟩ (offset + 1) := settled_of_none found
      exact ⟨turns + 1, .pass hsettled hturns⟩
  | case4 members offset queue m found kept ih =>
      obtain ⟨turns, hturns⟩ := ih
      have hsettled : Settled ⟨members⟩ (offset + 1) := settled_of_kept found kept
      exact ⟨turns + 1, .pass hsettled hturns⟩
  | case5 members offset queue m found kept ih =>
      obtain ⟨turns, hturns⟩ := ih
      exact ⟨turns + 1, .mark found (eq_false_of_ne_true kept) hturns⟩

/-- **How many turns the loop takes**: one for each number that is in the queue at the beginning, and one for each
witness of a member that gets its mark on the way. -/
theorem Drains.turns_add {members result : List Member} {queue : List Nat} {turns : Nat}
    (h : Drains members queue turns result) :
    turns + (keptWitnesses members).length = queue.length + (keptWitnesses result).length := by
  induction h with
  | done => rfl
  | pass _ _ ih =>
      rw [List.length_cons]
      omega
  | mark found not_kept _ ih =>
      rw [length_keptWitnesses_set found not_kept, List.length_append] at ih
      rw [List.length_cons]
      omega

/-! ## Needed members -/

/-- A member needs its witnesses. -/
def Needs (p : Proof) (w u : Nat) : Prop :=
  ∃ m, p.get? w = some m ∧ u ∈ m.witnesses

/-- The number is that of the last member, or is reached from there by going from members to their witnesses. -/
def Needed (p : Proof) (w : Nat) : Prop :=
  Relation.ReflTransGen p.Needs p.length w

/-- The set has the last member of the proof, and with a member its witnesses, and every other such set has all
of it. -/
structure LeastClosed (p : Proof) (P : Nat → Prop) : Prop where
  last : 0 < p.length → P p.length
  closed : p.ClosedUnder P
  least : ∀ Q, (0 < p.length → Q p.length) → p.ClosedUnder Q → ∀ w, P w → Q w

variable {p : Proof} {w : Nat}

/-- What needed members need is needed. -/
theorem closedUnder_needed (p : Proof) : p.ClosedUnder p.Needed := by
  intro w m hm hw u hu
  exact hw.tail ⟨m, hm, hu⟩

/-- **No needed member is left without a mark**: an induction on the way to it from the last member. -/
theorem settled_of_needed (h : p.Needed w) : p.markNeeded.Settled w := by
  induction h with
  | refl => exact settled_markFrom (List.mem_singleton_self _)
  | @tail v w _ hneeds ih =>
      obtain ⟨m, hm, hw⟩ := hneeds
      obtain ⟨n, hn, -, hwitnesses⟩ := exists_get?_of_unmarked_eq (unmarked_markNeeded p).symm hm
      exact settled_of_mem_witnesses hn (ih n hn) (hwitnesses ▸ hw)

/-- **The marked members are the needed ones.** -/
theorem kept_iff_needed {m : Member} (hm : p.markNeeded.get? w = some m) : m.kept = true ↔ p.Needed w := by
  constructor
  · intro hkept
    exact of_keeps_markNeeded (closedUnder_needed p) .refl ⟨m, hm, hkept⟩
  · intro hneeded
    exact settled_of_needed hneeded m hm

/-- **The marked members are the least closed set** that has the last member. -/
theorem leastClosed_markNeeded (hp : p.Grounded) : p.LeastClosed p.markNeeded.Keeps where
  last := keeps_length_markNeeded
  closed := (closedUnder_markNeeded hp).of_unmarked_eq (unmarked_markNeeded p).symm
  least Q hlast hclosed w hw := by
    -- The proof has a member, so it has a last one.
    obtain ⟨m, hm, -⟩ := id hw
    have hle := le_of_get? hm
    rw [length_markNeeded] at hle
    exact of_keeps_markNeeded hclosed (hlast (Nat.lt_of_lt_of_le hle.1 hle.2)) hw

/-! ## What optimizing answers -/

theorem optimize_snd (p : Proof) : p.optimize.2 = p.markNeeded :=
  edit_optimize p

/-- The answer is the number of marked members when some members have no mark. -/
theorem optimize_eq_ok_iff {count : Nat} :
    p.optimize.1 = .ok count ↔ count = p.optimize.2.keptCount ∧ count < p.length := by
  have hle : p.markNeeded.keptCount ≤ p.length := by
    rw [← length_markNeeded p]
    exact List.countP_le_length
  rw [optimize_snd, optimize, length_markNeeded]
  by_cases hall : p.markNeeded.keptCount = p.length
  · rw [if_pos hall]
    constructor
    · intro h
      cases h
    · rintro ⟨rfl, hlt⟩
      exact absurd hall (Nat.ne_of_lt hlt)
  · rw [if_neg hall]
    constructor
    · intro h
      obtain rfl := Except.ok.inj h
      exact ⟨rfl, Nat.lt_of_le_of_ne hle hall⟩
    · rintro ⟨rfl, -⟩
      rfl

/-- It is an error when all members are marked, and there is one error only. -/
theorem optimize_eq_error_iff {error : ProofError} :
    p.optimize.1 = .error error ↔ error = .alreadyOptimal ∧ ∀ m ∈ p.optimize.2.members, m.kept = true := by
  have hall : (∀ m ∈ p.markNeeded.members, m.kept = true) ↔ p.markNeeded.keptCount = p.markNeeded.length :=
    List.countP_eq_length.symm
  rw [optimize_snd, hall, optimize]
  split
  · rename_i hcount
    constructor
    · intro h
      exact ⟨(Except.error.inj h).symm, hcount⟩
    · rintro ⟨rfl, -⟩
      rfl
  · rename_i hcount
    constructor
    · intro h
      cases h
    · rintro ⟨-, h⟩
      exact absurd h hcount

/-- The loop starts without marks and with the last member in its queue. -/
theorem drains_markNeeded (p : Proof) :
    Drains p.unmarked.members [p.length] (1 + (keptWitnesses p.markNeeded.members).length)
      p.markNeeded.members := by
  obtain ⟨turns, hturns⟩ := exists_drains p.unmarked.members [p.length]
  have hnone : keptWitnesses p.unmarked.members = [] := by
    have hunmarked : p.unmarked.members.filter Member.kept = [] := by
      apply List.filter_eq_nil_iff.2
      intro m hm
      obtain ⟨n, -, rfl⟩ := List.mem_map.1 hm
      exact Bool.false_ne_true
    rw [keptWitnesses, hunmarked, List.flatMap_nil]
  have hcount := hturns.turns_add
  rw [hnone] at hcount
  obtain rfl : turns = 1 + (keptWitnesses p.markNeeded.members).length := hcount
  exact hturns

/-- **Optimizing marks what the last member needs.** A proof has been edited in any way, and its marks may be any
others. The loop ends, after one turn and one more for each witness of a marked member. A member is marked then if
and only if it is the last one or is reached from it in one or more steps from a member to a witness; these members
are the least set that has the last member and is closed under witnesses. The answer is their number, if it is less
than the length, and an error if all members are marked, as those of the empty proof are. Nothing but marks
changes. -/
theorem optimize_marks_needed_edited (edits : List Edit) {p : Proof} (hp : p.unmarked = (edited edits).unmarked) :
    Drains p.unmarked.members [p.length] (1 + (keptWitnesses p.optimize.2.members).length)
        p.optimize.2.members ∧
      (∀ w m, p.optimize.2.get? w = some m →
        (m.kept = true ↔ w = p.length ∨ Relation.TransGen p.Needs p.length w)) ∧
      p.LeastClosed p.optimize.2.Keeps ∧
      (∀ count, p.optimize.1 = .ok count ↔ count = p.optimize.2.keptCount ∧ count < p.length) ∧
      (∀ error, p.optimize.1 = .error error ↔
        error = .alreadyOptimal ∧ ∀ m ∈ p.optimize.2.members, m.kept = true) ∧
      (p.length = 0 → p.optimize.1 = .error .alreadyOptimal) ∧
      p.optimize.2.unmarked = p.unmarked := by
  have hgrounded : p.Grounded := (coherent_edited edits).grounded.of_unmarked_eq hp
  have hmarked := optimize_snd p
  refine ⟨?_, ?_, ?_, fun count => optimize_eq_ok_iff, fun error => optimize_eq_error_iff, ?_, ?_⟩
  · rw [hmarked]
    exact drains_markNeeded p
  · intro w m hm
    rw [hmarked] at hm
    rw [kept_iff_needed hm, Needed, Relation.reflTransGen_iff_eq_or_transGen]
  · rw [hmarked]
    exact leastClosed_markNeeded hgrounded
  · intro hempty
    apply optimize_eq_error_iff.2
    have hnone : p.optimize.2.members = [] := by
      rw [hmarked]
      exact List.length_eq_zero_iff.1 ((length_markNeeded p).trans hempty)
    rw [hnone]
    exact ⟨rfl, List.forall_mem_nil _⟩
  · rw [hmarked]
    exact unmarked_markNeeded p

/-- The last member has one witness twice, and all marks are old: they were set for other last members. -/
def oldMarks : Proof :=
  ⟨[⟨.letter 'A', [], true⟩, ⟨.letter 'B', [], true⟩, ⟨.letter 'C', [2], true⟩, ⟨.letter 'D', [1, 1], true⟩]⟩

/-- The loop comes to the second member in none of its three turns, and its mark is taken away. -/
theorem optimize_marks_needed_old_marks :
    oldMarks.unmarked = (edited [.push (.letter 'A') [], .push (.letter 'B') [], .push (.letter 'C') [2],
      .optimize, .push (.letter 'D') [1, 1]]).unmarked ∧
    Drains oldMarks.unmarked.members [4] 3 oldMarks.optimize.2.members ∧
    Relation.TransGen oldMarks.Needs 4 1 ∧ ¬ Relation.TransGen oldMarks.Needs 4 2 ∧
    oldMarks.optimize.1 = .ok 2 := by
  have hedited : oldMarks.unmarked = (edited [.push (.letter 'A') [], .push (.letter 'B') [],
      .push (.letter 'C') [2], .optimize, .push (.letter 'D') [1, 1]]).unmarked := by
    decide +kernel
  obtain ⟨hturns, hkept, -, hcount, -, -, -⟩ := optimize_marks_needed_edited _ hedited
  have hfirst := (hkept 1 ⟨.letter 'A', [], true⟩ (by decide +kernel)).1 rfl
  have hsecond := mt (hkept 2 ⟨.letter 'B', [], false⟩ (by decide +kernel)).2 Bool.false_ne_true
  have hwitnesses : keptWitnesses oldMarks.optimize.2.members = [1, 1] := by decide +kernel
  rw [hwitnesses] at hturns
  refine ⟨hedited, hturns, hfirst.resolve_left (by decide), fun h => hsecond (Or.inr h), ?_⟩
  exact (hcount 2).2 (by decide +kernel)

end PropositionalCalculus.Proof
