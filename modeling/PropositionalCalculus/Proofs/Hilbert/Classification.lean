import PropositionalCalculus.Formula.Text
import PropositionalCalculus.Proofs.Hilbert.Acceptance

/-!
# The types of axioms

A formula is of a type when it is an instance of the schema with that number, and it may be of several. The system
gives the first of them, and gives no type to a formula that is an instance of no schema. Behind this stands what
matching finds for any pattern at all: the instances of the pattern (`matching_is_instantiation`).
-/

set_option autoImplicit false

namespace PropositionalCalculus.Hilbert

/-- The formula is an instance of the schema with the number, from one. -/
def IsOfType (type : Nat) (f : Formula) : Prop :=
  ∃ offset s, type = offset + 1 ∧ schemas[offset]? = some s ∧ ∃ σ, s.pattern.substitute σ = f

variable {f : Formula} {type : Nat}

/-- A schema admits the formulas that are of its type. -/
theorem isOfType_succ_iff {offset : Nat} (hlt : offset < schemas.length) :
    IsOfType (offset + 1) f ↔ schemas[offset].admits f = true := by
  have hplain : schemas[offset].pattern.Plain := plain_of_mem_schemas _ (List.getElem_mem hlt)
  constructor
  · rintro ⟨_, s, hoffset, hs, hinstance⟩
    obtain rfl := Nat.succ.inj hoffset
    obtain rfl := Option.some.inj ((List.getElem?_eq_getElem hlt).symm.trans hs)
    exact Schema.admits_iff.2 ⟨hplain, hinstance⟩
  · intro h
    exact ⟨offset, _, rfl, List.getElem?_eq_getElem hlt, (Schema.admits_iff.1 h).2⟩

/-- Types are numbers of schemas. -/
theorem IsOfType.exists_offset (h : IsOfType type f) : ∃ offset, type = offset + 1 ∧ offset < schemas.length := by
  obtain ⟨offset, s, rfl, hs, -⟩ := h
  exact ⟨offset, rfl, (List.getElem?_eq_some_iff.1 hs).1⟩

/-- **The system gives the first type** that a formula has. -/
theorem axiomType?_eq_some_iff :
    axiomType? f = some type ↔ IsOfType type f ∧ ∀ earlier < type, ¬ IsOfType earlier f := by
  rw [axiomType?, Option.map_eq_some_iff]
  constructor
  · rintro ⟨offset, hfound, rfl⟩
    obtain ⟨hlt, hadmits, hfirst⟩ := List.findIdx?_eq_some_iff_getElem.1 hfound
    refine ⟨(isOfType_succ_iff hlt).2 hadmits, ?_⟩
    intro earlier hearlier h
    obtain ⟨offset', rfl, hlt'⟩ := h.exists_offset
    exact hfirst offset' (Nat.lt_of_succ_lt_succ hearlier) ((isOfType_succ_iff hlt').1 h)
  · rintro ⟨h, hfirst⟩
    obtain ⟨offset, rfl, hlt⟩ := h.exists_offset
    refine ⟨offset, List.findIdx?_eq_some_iff_getElem.2 ⟨hlt, (isOfType_succ_iff hlt).1 h, ?_⟩, rfl⟩
    intro earlier hearlier hadmits
    have hlt' := Nat.lt_trans hearlier hlt
    exact hfirst (earlier + 1) (Nat.succ_lt_succ hearlier) ((isOfType_succ_iff hlt').2 hadmits)

/-- **A formula without a type** is an instance of no schema. -/
theorem axiomType?_eq_none_iff : axiomType? f = none ↔ ∀ type, ¬ IsOfType type f := by
  constructor
  · intro hnone type h
    obtain ⟨offset, s, -, hs, hinstance⟩ := h
    obtain ⟨type', htype⟩ := exists_axiomType?_iff.2 ⟨s, List.mem_of_getElem? hs, hinstance⟩
    exact nomatch hnone.symm.trans htype
  · intro h
    cases htype : axiomType? f with
    | none => rfl
    | some type => exact absurd (axiomType?_eq_some_iff.1 htype).1 (h type)

/-- **Matching finds the instances.** A pattern matches a formula if and only if its letters are among `A` to `Z` and
the formula comes about when formulas are put in the place of the letters, the same one for each occurrence of a
letter. So the type that the system gives to a formula is the number of the first of its schemas of which the
formula is an instance, and it gives none to the formulas that are instances of none. -/
theorem matching_is_instantiation :
    (∀ pattern f, Schema.admits ⟨pattern⟩ f = true ↔ pattern.Plain ∧ ∃ σ, pattern.substitute σ = f) ∧
      (∀ f type, axiomType? f = some type ↔ IsOfType type f ∧ ∀ earlier < type, ¬ IsOfType earlier f) ∧
      ∀ f, axiomType? f = none ↔ ∀ type, ¬ IsOfType type f := by
  refine ⟨?_, ?_, ?_⟩
  · intro pattern f
    exact Schema.admits_iff
  · intro f type
    exact axiomType?_eq_some_iff
  · intro f
    exact axiomType?_eq_none_iff

-- The schemas as they are written.
example :
    schemas.map (fun s => s.pattern.text .bracketed) =
      ["(A>(B>A))", "((A>(B>C))>((A>B)>(A>C)))", "((-A>-B)>(B>A))", "((A.B)>A)", "((A.B)>B)", "(A>(B>(A.B)))",
        "(A>(A+B))", "(B>(A+B))", "((A>C)>((B>C)>((A+B)>C)))", "((A=B)>(A>B))", "((A=B)>(B>A))",
        "((A>B)>((B>A)>(A=B)))"] := by
  decide +kernel

end PropositionalCalculus.Hilbert
