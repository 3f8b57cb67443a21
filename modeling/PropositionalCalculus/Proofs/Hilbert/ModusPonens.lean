import PropositionalCalculus.Hilbert

/-!
# The search for modus ponens

The witnesses of `f` are looked for in two nested searches: the outer one for an implication to `f`, the
inner one for its antecedent. Both take the first hit (`witnesses_eq`), and there are witnesses exactly when there
is any implication to `f` with its antecedent (`mem_of_witnesses_ne_nil`, `exists_witnesses_eq`).
-/

set_option autoImplicit false

namespace PropositionalCalculus.Hilbert

variable {f : Formula} {formulas : List Formula}

theorem antecedent?_imp (f : Formula) (formulas : List Formula) (x : Formula) :
    antecedent? f formulas (imp x f) = (formulas.findIdx? (· == x)).map (· + 1) :=
  if_pos (beq_self_eq_true f)

/-- Only implications to `f` have an antecedent, and only when it is one of the formulas. -/
theorem antecedent?_eq_some {g : Formula} {i : Nat} (h : antecedent? f formulas g = some i) :
    ∃ x offset, g = imp x f ∧ formulas.findIdx? (· == x) = some offset ∧ i = offset + 1 := by
  cases g with
  | letter c => simp [antecedent?] at h
  | negation g => simp [antecedent?] at h
  | compound op x consequent =>
      cases op with
      | implication =>
          rw [antecedent?] at h
          split at h
          · rename_i hsame
            obtain ⟨offset, hfound, hi⟩ := Option.map_eq_some_iff.1 h
            exact ⟨x, offset, congrArg (imp x) (eq_of_beq hsame), hfound, hi.symm⟩
          · simp at h
      | conjunction => simp [antecedent?] at h
      | disjunction => simp [antecedent?] at h
      | equivalence => simp [antecedent?] at h

/-- A formula that is there is found. -/
theorem findIdx?_of_mem {x : Formula} (hx : x ∈ formulas) :
    ∃ offset, formulas.findIdx? (· == x) = some offset :=
  ⟨_, List.findIdx?_eq_some_of_exists ⟨x, hx, beq_self_eq_true x⟩⟩

/-- Whether a formula is an implication to `f` with its antecedent among the formulas. -/
def isMajor (f : Formula) (formulas : List Formula) (g : Formula) : Bool :=
  (antecedent? f formulas g).isSome

theorem isMajor_iff {g : Formula} : isMajor f formulas g = true ↔ ∃ x ∈ formulas, g = imp x f := by
  rw [isMajor, Option.isSome_iff_exists]
  constructor
  · rintro ⟨i, h⟩
    obtain ⟨x, offset, rfl, hfound, -⟩ := antecedent?_eq_some h
    obtain ⟨hlt, hx, -⟩ := List.findIdx?_eq_some_iff_getElem.1 hfound
    exact ⟨x, List.mem_of_getElem (eq_of_beq hx), rfl⟩
  · rintro ⟨x, hx, rfl⟩
    obtain ⟨offset, hfound⟩ := findIdx?_of_mem hx
    exact ⟨_, by rw [antecedent?_imp, hfound]; rfl⟩

/-- The search gives the first implication to `f` that has its antecedent. -/
theorem modusPonens?_eq (gs : List Formula) (index : Nat) :
    modusPonens? f formulas gs index =
      (gs.findIdx? (isMajor f formulas)).bind fun offset =>
        (gs[offset]?.bind (antecedent? f formulas)).map fun i => (i, index + offset) := by
  induction gs generalizing index with
  | nil => rfl
  | cons g gs ih =>
      -- The numbers are those of the whole list, so the offset in the rest is one less.
      rw [modusPonens?, List.findIdx?_cons]
      cases hantecedent : antecedent? f formulas g with
      | some i => simp [isMajor, hantecedent]
      | none =>
          simp only [isMajor, hantecedent, ih]
          cases gs.findIdx? (isMajor f formulas) with
          | none => rfl
          | some offset => simp [Nat.add_assoc, Nat.add_comm 1]

/-- The first implication and the first antecedent for it are the witnesses. -/
theorem witnesses_eq {p : Proof} {x : Formula} {i j : Nat} (hi : p.formulas.findIdx? (· == x) = some i)
    (hj : p.formulas.findIdx? (isMajor f p.formulas) = some j) (himp : p.formulas[j]? = some (imp x f)) :
    witnesses f p = [i + 1, j + 1] := by
  have hpair : modusPonens? f p.formulas p.formulas 1 = some (i + 1, 1 + j) := by
    rw [modusPonens?_eq, hj, Option.bind_some, himp, Option.bind_some, antecedent?_imp, hi]
    rfl
  rw [witnesses, hpair, Nat.add_comm 1]

/-- **What the witnesses are**: the first implication to `f` that has its antecedent, and the first member
that is the antecedent. -/
theorem exists_of_witnesses_ne_nil {p : Proof} (h : witnesses f p ≠ []) :
    ∃ x i j, p.formulas.findIdx? (· == x) = some i ∧
      p.formulas.findIdx? (isMajor f p.formulas) = some j ∧ p.formulas[j]? = some (imp x f) ∧
        witnesses f p = [i + 1, j + 1] := by
  cases hmajor : p.formulas.findIdx? (isMajor f p.formulas) with
  | none =>
      rw [witnesses, modusPonens?_eq, hmajor] at h
      exact absurd rfl h
  | some j =>
      obtain ⟨hlt, hj, -⟩ := List.findIdx?_eq_some_iff_getElem.1 hmajor
      obtain ⟨x, hx, himp⟩ := isMajor_iff.1 hj
      obtain ⟨i, hi⟩ := findIdx?_of_mem hx
      have hget : p.formulas[j]? = some (imp x f) := by rw [List.getElem?_eq_getElem hlt, himp]
      exact ⟨x, i, j, hi, rfl, hget, witnesses_eq hi hmajor hget⟩

/-- A formula that has witnesses follows from two members. -/
theorem mem_of_witnesses_ne_nil {f : Formula} {p : Proof} (h : witnesses f p ≠ []) :
    ∃ x, x ∈ p.formulas ∧ imp x f ∈ p.formulas := by
  obtain ⟨x, i, j, hi, -, himp, -⟩ := exists_of_witnesses_ne_nil h
  obtain ⟨hlt, hx, -⟩ := List.findIdx?_eq_some_iff_getElem.1 hi
  exact ⟨x, List.mem_of_getElem (eq_of_beq hx), List.mem_of_getElem? himp⟩

/-- **A formula that follows from two members has witnesses**, and they are members. -/
theorem exists_witnesses_eq {p : Proof} {x : Formula} (hx : x ∈ p.formulas) (himp : imp x f ∈ p.formulas) :
    ∃ i j, witnesses f p = [i + 1, j + 1] ∧ i < p.length ∧ j < p.length := by
  have hmajor : isMajor f p.formulas (imp x f) = true := isMajor_iff.2 ⟨x, hx, rfl⟩
  obtain ⟨j, hj⟩ : ∃ j, p.formulas.findIdx? (isMajor f p.formulas) = some j :=
    ⟨_, List.findIdx?_eq_some_of_exists ⟨_, himp, hmajor⟩⟩
  obtain ⟨hlt, hfirst, -⟩ := List.findIdx?_eq_some_iff_getElem.1 hj
  -- The first implication to `f` may have another antecedent.
  obtain ⟨y, hy, hget⟩ := isMajor_iff.1 hfirst
  obtain ⟨i, hi⟩ := findIdx?_of_mem hy
  have hilt := (List.findIdx?_eq_some_iff_getElem.1 hi).1
  refine ⟨i, j, witnesses_eq hi hj ?_, ?_, ?_⟩
  · rw [List.getElem?_eq_getElem hlt, hget]
  · rwa [Proof.formulas, List.length_map] at hilt
  · rwa [Proof.formulas, List.length_map] at hlt

/-- Every witness is a member. -/
theorem le_of_mem_witnesses {p : Proof} {w : Nat} (hw : w ∈ witnesses f p) : 0 < w ∧ w ≤ p.length := by
  obtain ⟨x, hx, himp⟩ := mem_of_witnesses_ne_nil (List.ne_nil_of_mem hw)
  obtain ⟨i, j, hwitnesses, hi, hj⟩ := exists_witnesses_eq hx himp
  rw [hwitnesses, List.mem_cons, List.mem_singleton] at hw
  rcases hw with rfl | rfl
  · exact ⟨Nat.succ_pos i, hi⟩
  · exact ⟨Nat.succ_pos j, hj⟩

end PropositionalCalculus.Hilbert
