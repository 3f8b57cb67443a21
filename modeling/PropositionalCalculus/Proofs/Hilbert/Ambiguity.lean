import Mathlib.Data.List.Find
import PropositionalCalculus.Hilbert
import PropositionalCalculus.Proofs.Schema.Overlap

/-!
# Axioms of two types

A formula may be an instance of several schemas, and the system gives the number of the one that it tries first. This
is a choice for few formulas only. Two schemas of the system admit a formula in common in three cases, all of the same
kind: the schemas are the two halves of a law for one connective, and the formula puts the same formula in both places
(`Ambiguous`). For all other pairs the equation between their patterns has no solution (`overlap_schemas`): the
operators differ, or some formula would have to contain itself.

So whatever the order in which the schemas are tried, every other formula gets the same type, and none is of three
types (`ambiguous_types`).
-/

set_option autoImplicit false

namespace PropositionalCalculus.Hilbert

/-- The schema with the number, from one, admits the formula. -/
def AdmittedAs (type : Nat) (f : Formula) : Prop :=
  ∃ offset s, type = offset + 1 ∧ schemas[offset]? = some s ∧ s.admits f = true

/-- The formulas that two schemas admit, with the numbers of the schemas. -/
inductive Ambiguous : Nat → Nat → Formula → Prop where
  | conjunction (x : Formula) : Ambiguous 4 5 (imp (conj x x) x)
  | disjunction (x : Formula) : Ambiguous 7 8 (imp x (disj x x))
  | equivalence (x : Formula) : Ambiguous 10 11 (imp (equ x x) (imp x x))

/-- The type that is found when the schemas are tried in the given order, each with its place in the system. -/
def typeInOrder? (order : List (Schema × Nat)) (f : Formula) : Option Nat :=
  (order.find? fun entry => entry.1.admits f).map fun entry => entry.2 + 1

variable {f : Formula} {i j : Nat}

/-- The system tries its schemas in the order of their numbers. -/
theorem typeInOrder?_schemas (f : Formula) : typeInOrder? schemas.zipIdx f = axiomType? f := by
  rw [axiomType?, List.findIdx?_eq_fst_find?_zipIdx, Option.map_map]
  rfl

/-- **The overlaps of the schemas**, for each pair of them: there is none but in three cases. -/
theorem overlap_schemas :
    ∀ entry ∈ schemas.zipIdx, ∀ entry' ∈ schemas.zipIdx, entry.2 < entry'.2 →
      entry.1.overlap 9 entry'.1 = .empty ∨
        entry.2 = 3 ∧ entry'.2 = 4 ∧
          entry.1.overlap 9 entry'.1 = .instancesOf (imp (conj b.apart b.apart) b.apart) ∨
        entry.2 = 6 ∧ entry'.2 = 7 ∧
          entry.1.overlap 9 entry'.1 = .instancesOf (imp a.apart (disj a.apart a.apart)) ∨
        entry.2 = 9 ∧ entry'.2 = 10 ∧
          entry.1.overlap 9 entry'.1 = .instancesOf (imp (equ b.apart b.apart) (imp b.apart b.apart)) := by
  decide +kernel

/-- **Only ambiguous formulas are admitted by two schemas.** -/
theorem ambiguous_of_admits {s t : Schema} {k l : Nat} (hs : (s, k) ∈ schemas.zipIdx)
    (ht : (t, l) ∈ schemas.zipIdx) (hlt : k < l) (hf : s.admits f = true) (hf' : t.admits f = true) :
    Ambiguous (k + 1) (l + 1) f := by
  obtain ⟨σ, hcovers⟩ := Schema.exists_covers_overlap 9 hf hf'
  rcases overlap_schemas _ hs _ ht hlt with
    hoverlap | ⟨rfl, rfl, hoverlap⟩ | ⟨rfl, rfl, hoverlap⟩ | ⟨rfl, rfl, hoverlap⟩
  · rw [hoverlap] at hcovers
    exact hcovers.elim
  · rw [hoverlap] at hcovers
    exact hcovers ▸ .conjunction _
  · rw [hoverlap] at hcovers
    exact hcovers ▸ .disjunction _
  · rw [hoverlap] at hcovers
    exact hcovers ▸ .equivalence _

/-- Both schemas admit an ambiguous formula: it is the instance with the same formula in both places. -/
theorem Ambiguous.admittedAs (h : Ambiguous i j f) : AdmittedAs i f ∧ AdmittedAs j f := by
  have hinstance : ∀ {s : Schema} (x : Formula), s.pattern.Plain →
      s.admits (s.pattern.substitute fun _ => x) = true :=
    fun x hplain => Schema.admits_substitute hplain _
  cases h with
  | conjunction x =>
      exact ⟨⟨3, ⟨imp (conj a b) a⟩, rfl, rfl, hinstance x (by decide)⟩,
        ⟨4, ⟨imp (conj a b) b⟩, rfl, rfl, hinstance x (by decide)⟩⟩
  | disjunction x =>
      exact ⟨⟨6, ⟨imp a (disj a b)⟩, rfl, rfl, hinstance x (by decide)⟩,
        ⟨7, ⟨imp b (disj a b)⟩, rfl, rfl, hinstance x (by decide)⟩⟩
  | equivalence x =>
      exact ⟨⟨9, ⟨imp (equ a b) (imp a b)⟩, rfl, rfl, hinstance x (by decide)⟩,
        ⟨10, ⟨imp (equ a b) (imp b a)⟩, rfl, rfl, hinstance x (by decide)⟩⟩

/-- **Which formulas are of two types.** -/
theorem admittedAs_both_iff (hlt : i < j) : AdmittedAs i f ∧ AdmittedAs j f ↔ Ambiguous i j f := by
  constructor
  · rintro ⟨⟨k, s, rfl, hs, hf⟩, ⟨l, t, rfl, ht, hf'⟩⟩
    exact ambiguous_of_admits (List.mk_mem_zipIdx_iff_getElem?.2 hs) (List.mk_mem_zipIdx_iff_getElem?.2 ht)
      (Nat.lt_of_succ_lt_succ hlt) hf hf'
  · exact Ambiguous.admittedAs

/-- The second type of an ambiguous formula is not the first one of another. -/
theorem Ambiguous.not_ambiguous {k : Nat} {g : Formula} (h : Ambiguous i j f) : ¬ Ambiguous j k g := by
  intro h'
  cases h <;> cases h'

/-- **A formula that is not ambiguous has one type in every order.** -/
theorem typeInOrder?_eq_of_perm {order : List (Schema × Nat)} (horder : order.Perm schemas.zipIdx)
    (hf : ∀ i j, ¬ Ambiguous i j f) : typeInOrder? order f = axiomType? f := by
  rw [← typeInOrder?_schemas, typeInOrder?, typeInOrder?]
  congr 1
  apply List.find?_eq_find?_of_perm horder
  rintro ⟨s, k⟩ ⟨hs, hsf⟩ ⟨t, l⟩ ⟨ht, htf⟩
  rw [horder.mem_iff] at hs ht
  -- At the same place there is the same schema; at different places the formula would be ambiguous.
  rcases Nat.lt_trichotomy k l with hlt | rfl | hlt
  · exact absurd (ambiguous_of_admits hs ht hlt hsf htf) (hf _ _)
  · rw [List.mk_mem_zipIdx_iff_getElem?] at hs ht
    rw [Option.some.inj (hs.symm.trans ht)]
  · exact absurd (ambiguous_of_admits ht hs hlt htf hsf) (hf _ _)

/-- **Types are ambiguous in three ways only.** The schemas with two numbers admit the same formula if and only if they
are the fourth and the fifth, the seventh and the eighth, or the tenth and the eleventh, and the formula is `(X.X)>X`,
`X>(X+X)` or `(X=X)>(X>X)`. Every other formula gets the same type in whatever order the schemas are tried, and no
formula is admitted by three schemas. -/
theorem ambiguous_types (f : Formula) :
    (∀ i j, i < j → (AdmittedAs i f ∧ AdmittedAs j f ↔ Ambiguous i j f)) ∧
      ((∀ i j, ¬ Ambiguous i j f) →
        ∀ order : List (Schema × Nat), order.Perm schemas.zipIdx → typeInOrder? order f = axiomType? f) ∧
      ∀ i j k, i < j → j < k → ¬ (AdmittedAs i f ∧ AdmittedAs j f ∧ AdmittedAs k f) := by
  refine ⟨?_, ?_, ?_⟩
  · intro i j hlt
    exact admittedAs_both_iff hlt
  · intro hf order horder
    exact typeInOrder?_eq_of_perm horder hf
  · rintro i j k hij hjk ⟨hi, hj, hk⟩
    have hfirst := (admittedAs_both_iff hij).1 ⟨hi, hj⟩
    exact hfirst.not_ambiguous ((admittedAs_both_iff hjk).1 ⟨hj, hk⟩)

-- The ambiguous formula `(A.A)>A` gets its other type when the schemas are tried from the last to the first.
example :
    axiomType? (imp (conj a a) a) = some 4 ∧ typeInOrder? schemas.zipIdx.reverse (imp (conj a a) a) = some 5 := by
  decide +kernel

end PropositionalCalculus.Hilbert
