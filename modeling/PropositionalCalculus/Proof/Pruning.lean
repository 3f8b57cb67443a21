import PropositionalCalculus.Proof.Basic

/-!
# Pruning a proof

The members that the last one needs are the last one itself and the witnesses of every needed member.
`Proof.optimize` marks exactly those, and `Proof.pruned` is the proof of the marked members alone, with
their witnesses renumbered.
-/

set_option autoImplicit false

namespace PropositionalCalculus

namespace Member

/-- The member without its mark. -/
def unmarked (m : Member) : Member := { m with kept := false }

/-- The member with a mark. -/
def marked (m : Member) : Member := { m with kept := true }

end Member

namespace Proof

/-- The proof without marks. -/
def unmarked (p : Proof) : Proof := ⟨p.members.map Member.unmarked⟩

/-- The visits still to come from unmarked members: one to each, and one for each of its witnesses. -/
def unmarkedVisits : List Member → Nat
  | [] => 0
  | m :: rest => (if m.kept then 0 else m.witnesses.length + 1) + unmarkedVisits rest

theorem unmarkedVisits_set {members : List Member} {offset : Nat} {m : Member}
    (at_offset : members[offset]? = some m) (not_kept : m.kept = false) :
    unmarkedVisits (members.set offset m.marked) + (m.witnesses.length + 1) =
      unmarkedVisits members := by
  induction members generalizing offset with
  | nil => simp at at_offset
  | cons first rest ih =>
      cases offset with
      | zero =>
          simp only [List.getElem?_cons_zero, Option.some.injEq] at at_offset
          subst at_offset
          simp only [List.set_cons_zero, unmarkedVisits, Member.marked, not_kept]
          simp
          omega
      | succ offset =>
          have := ih (by simpa using at_offset : rest[offset]? = some m)
          simp only [List.set_cons_succ, unmarkedVisits]
          omega

/-- Marks the members whose numbers are in the queue, and all that they need. A number that is not that
of a member counts for nothing, and a marked member is not visited again. -/
def markFrom (members : List Member) (queue : List Nat) : List Member :=
  match queue with
  | [] => members
  | 0 :: queue => markFrom members queue
  | (offset + 1) :: queue =>
      match _found : members[offset]? with
      | none => markFrom members queue
      | some m =>
          if _kept : m.kept then markFrom members queue
          -- The visits that the witnesses add to the queue were counted for the unmarked member.
          else markFrom (members.set offset m.marked) (queue ++ m.witnesses)
termination_by unmarkedVisits members + queue.length
decreasing_by
  · simp
  · simp
  · simp
  · have := unmarkedVisits_set _found (by simpa using _kept)
    simp only [List.length_append, List.length_cons]
    omega

/-- The proof with exactly the members marked that its last member needs. -/
def markNeeded (p : Proof) : Proof :=
  ⟨markFrom p.unmarked.members [p.length]⟩

/-- The marked proof, with the number of needed members. It is an error when that is all of them. -/
def optimize (p : Proof) : Except ProofError Nat × Proof :=
  let marked := p.markNeeded
  if marked.keptCount = marked.length then (.error .alreadyOptimal, marked)
  else (.ok marked.keptCount, marked)

/-- The marked ones among `members`, without their marks. The numbers that the earlier members have in
the result are given in order, with `none` for those left out, and `count` of them are kept; witnesses
that are left out are dropped. -/
def renumber : List Member → List (Option Nat) → Nat → List Member
  | [], _, _ => []
  | m :: rest, numbers, count =>
      if m.kept then
        -- Witnesses come before the member, so their new numbers are known.
        { formula := m.formula
          witnesses := m.witnesses.filterMap fun w => (numbers[w - 1]?).join
          kept := false } :: renumber rest (numbers ++ [some (count + 1)]) (count + 1)
      else renumber rest (numbers ++ [none]) count

/-- The proof of the marked members alone. -/
def pruned (p : Proof) : Proof :=
  ⟨renumber p.members [] 0⟩

end Proof

end PropositionalCalculus
