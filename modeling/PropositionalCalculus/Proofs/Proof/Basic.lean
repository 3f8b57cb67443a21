import PropositionalCalculus.Proof.Basic

/-!
# The members of a proof and their numbers

A proof is grounded when every witness is the number of an earlier member. `Proof.push?` accepts exactly the
members that leave it so.
-/

set_option autoImplicit false

namespace PropositionalCalculus.Proof

theorem get?_eq_some_iff {p : Proof} {w : Nat} {m : Member} :
    p.get? w = some m ↔ ∃ offset, w = offset + 1 ∧ p.members[offset]? = some m := by
  cases w with
  | zero => simp [get?]
  | succ offset =>
      constructor
      · intro h
        exact ⟨offset, rfl, h⟩
      · rintro ⟨offset', hoffset, h⟩
        obtain rfl := Nat.succ.inj hoffset
        exact h

theorem exists_get? {p : Proof} {w : Nat} (hpos : 0 < w) (hle : w ≤ p.length) :
    ∃ m, p.get? w = some m := by
  obtain ⟨offset, rfl⟩ := Nat.exists_eq_add_of_lt hpos
  rw [Nat.zero_add] at hle ⊢
  exact ⟨_, List.getElem?_eq_getElem hle⟩

theorem le_of_get? {p : Proof} {w : Nat} {m : Member} (h : p.get? w = some m) :
    0 < w ∧ w ≤ p.length := by
  obtain ⟨offset, rfl, hm⟩ := get?_eq_some_iff.1 h
  exact ⟨Nat.succ_pos offset, (List.getElem?_eq_some_iff.1 hm).1⟩

theorem getElem?_formulas {p : Proof} {offset : Nat} {m : Member} (h : p.get? (offset + 1) = some m) :
    p.formulas[offset]? = some m.formula := by
  rw [formulas, List.getElem?_map, show p.members[offset]? = some m from h]
  rfl

theorem mem_formulas_of_mem_keptFormulas {p : Proof} {f : Formula} (h : f ∈ p.keptFormulas) :
    f ∈ p.formulas := by
  obtain ⟨m, hm, rfl⟩ := List.mem_map.1 h
  exact List.mem_map_of_mem (List.mem_filter.1 hm).1

/-- A member of a longer proof is a member before or the new one. -/
theorem getElem?_snoc {members : List Member} {last m : Member} {offset : Nat}
    (h : (members ++ [last])[offset]? = some m) :
    members[offset]? = some m ∨ (offset = members.length ∧ m = last) := by
  rcases Nat.lt_trichotomy offset members.length with hlt | heq | hgt
  · rw [List.getElem?_append_left hlt] at h
    exact Or.inl h
  · rw [heq, List.getElem?_concat_length] at h
    exact Or.inr ⟨heq, (Option.some.inj h).symm⟩
  · rw [List.getElem?_eq_none (by rw [List.length_append, List.length_singleton]; exact hgt)] at h
    simp at h

/-- Every witness of a member is the number of an earlier one. -/
def Grounded (p : Proof) : Prop :=
  ∀ w m, p.get? w = some m → ∀ u ∈ m.witnesses, 0 < u ∧ u < w

/-- What `push?` accepts. -/
theorem push?_eq_ok_iff {p q : Proof} {f : Formula} {witnesses : List Nat} :
    p.push? f witnesses = .ok q ↔
      (∀ w ∈ witnesses, 0 < w ∧ w ≤ p.length) ∧ q = ⟨p.members ++ [⟨f, witnesses, false⟩]⟩ := by
  have hknown : (∀ w ∈ witnesses, 0 < w ∧ w ≤ p.length) ↔
      witnesses.find? (fun w => w == 0 || p.length < w) = none := by
    simp only [List.find?_eq_none, Bool.or_eq_true, beq_iff_eq, decide_eq_true_eq, not_or, Nat.not_lt,
      Nat.pos_iff_ne_zero]
  rw [hknown, push?]
  cases witnesses.find? (fun w => w == 0 || p.length < w) with
  | some unknown => simp
  | none => simp [eq_comm]

/-- What `push?` refuses: a member with a witness that is not the number of a member. -/
theorem exists_of_push?_eq_error {p : Proof} {f : Formula} {witnesses : List Nat} {error : ProofError}
    (h : p.push? f witnesses = .error error) :
    ∃ w ∈ witnesses, (w = 0 ∨ p.length < w) ∧ error = .unknownWitness w := by
  rw [push?] at h
  cases hfind : witnesses.find? (fun w => w == 0 || p.length < w) with
  | none => simp [hfind] at h
  | some w =>
      rw [hfind] at h
      refine ⟨w, List.mem_of_find?_eq_some hfind, ?_, (Except.error.inj h).symm⟩
      simpa only [Bool.or_eq_true, beq_iff_eq, decide_eq_true_eq] using List.find?_some hfind

theorem grounded_empty : empty.Grounded := by
  intro w m hm
  obtain ⟨offset, -, hm⟩ := get?_eq_some_iff.1 hm
  simp [empty] at hm

/-- **A member that is accepted leaves the proof grounded.** -/
theorem Grounded.push {p q : Proof} (hp : p.Grounded) {f : Formula} {witnesses : List Nat}
    (h : p.push? f witnesses = .ok q) : q.Grounded := by
  obtain ⟨hwitnesses, rfl⟩ := push?_eq_ok_iff.1 h
  intro w m hm u hu
  obtain ⟨offset, rfl, hoffset⟩ := get?_eq_some_iff.1 hm
  rcases getElem?_snoc hoffset with hold | ⟨rfl, rfl⟩
  · exact hp (offset + 1) m hold u hu
  · obtain ⟨hpos, hle⟩ := hwitnesses u hu
    exact ⟨hpos, Nat.lt_succ_of_le hle⟩

end PropositionalCalculus.Proof
