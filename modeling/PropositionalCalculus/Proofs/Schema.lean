import PropositionalCalculus.Schema
import PropositionalCalculus.Formula.Substitution

/-!
# What matching finds

The matcher goes through the pattern from left to right and only adds to its bindings. Whatever is added
later, the letters matched so far keep what they stand for, so under the final bindings every part of the
pattern becomes the part of the formula that it was matched with (`match?_sound`). Conversely a pattern matches
each of its instances, for the bindings never disagree with the substitution that gave the instance
(`match?_complete`). Together they say what a schema admits (`Schema.admits_iff`).
-/

set_option autoImplicit false

namespace PropositionalCalculus

namespace Bindings

/-- Every letter that stands for a formula stands for the same formula in the other bindings. -/
def Extends (bindings bindings' : Bindings) : Prop :=
  ∀ c f, bindings.lookup c = some f → bindings'.lookup c = some f

/-- The substitution that the bindings describe; a letter without a binding stays. -/
def substitution (bindings : Bindings) (c : Char) : Formula :=
  (bindings.lookup c).getD (.letter c)

theorem Extends.refl (bindings : Bindings) : bindings.Extends bindings := by
  intro c f h
  exact h

theorem Extends.trans {b₁ b₂ b₃ : Bindings} (h₁ : b₁.Extends b₂) (h₂ : b₂.Extends b₃) :
    b₁.Extends b₃ := by
  intro c f h
  exact h₂ c f (h₁ c f h)

theorem substitution_eq {bindings : Bindings} {c : Char} {f : Formula} (h : bindings.lookup c = some f) :
    bindings.substitution c = f := by
  simp [substitution, h]

/-- A letter that could be bound is bound, and no other binding is touched. -/
theorem bind?_sound {bindings bindings' : Bindings} {c : Char} {f : Formula}
    (h : bindings.bind? c f = some bindings') :
    bindings.Extends bindings' ∧ bindings'.lookup c = some f := by
  rw [bind?] at h
  cases hlookup : bindings.lookup c with
  | some g =>
      simp only [hlookup] at h
      split at h
      · rename_i hsame
        obtain rfl := Option.some.inj h
        exact ⟨Extends.refl bindings, eq_of_beq hsame ▸ hlookup⟩
      · simp at h
  | none =>
      simp only [hlookup] at h
      obtain rfl := Option.some.inj h
      refine ⟨?_, List.lookup_cons_self⟩
      intro d g hg
      -- The letter had no binding, so it is not `d`.
      have hne : d ≠ c := by
        rintro rfl
        simp [hlookup] at hg
      rw [List.lookup_cons, beq_eq_false_iff_ne.2 hne]
      exact hg

/-- What a letter stands for is what the substitution puts in its place. -/
def AgreesWith (bindings : Bindings) (σ : Char → Formula) : Prop :=
  ∀ c f, bindings.lookup c = some f → σ c = f

/-- A letter can be bound to what the substitution puts in its place. -/
theorem bind?_complete {bindings : Bindings} {σ : Char → Formula} (h : bindings.AgreesWith σ) (c : Char) :
    ∃ bindings', bindings.bind? c (σ c) = some bindings' ∧ bindings'.AgreesWith σ := by
  cases hlookup : bindings.lookup c with
  | some g =>
      refine ⟨bindings, ?_, h⟩
      rw [bind?, hlookup, h c g hlookup]
      exact if_pos (beq_self_eq_true g)
  | none =>
      refine ⟨(c, σ c) :: bindings, ?_, ?_⟩
      · rw [bind?, hlookup]
      · intro d f hf
        rw [List.lookup_cons] at hf
        split at hf
        · rename_i hsame
          rw [eq_of_beq hsame]
          exact Option.some.inj hf
        · exact h d f hf

end Bindings

namespace Formula

open Bindings

/-- **Matching is sound**: under the bindings that it gives, and under all that extend them, the pattern
becomes the formula. -/
theorem match?_sound {pattern f : Formula} {bindings bindings' : Bindings}
    (h : pattern.match? f bindings = some bindings') :
    bindings.Extends bindings' ∧
      ∀ later, bindings'.Extends later → pattern.substitute later.substitution = f := by
  induction pattern generalizing f bindings bindings' with
  | letter c =>
      rw [match?] at h
      split at h
      · obtain ⟨hextends, hlookup⟩ := bind?_sound h
        refine ⟨hextends, ?_⟩
        intro later hlater
        exact substitution_eq (hlater c f hlookup)
      · simp at h
  | negation pattern ih =>
      cases f with
      | negation f =>
          obtain ⟨hextends, hinstance⟩ := ih h
          refine ⟨hextends, ?_⟩
          intro later hlater
          rw [substitute, hinstance later hlater]
      | letter c => cases h
      | compound op left right => cases h
  | compound op left right ihl ihr =>
      cases f with
      | compound op' left' right' =>
          rw [match?] at h
          split at h
          · rename_i hop
            obtain ⟨between, hleft, hright⟩ := Option.bind_eq_some_iff.1 h
            obtain ⟨hextends, hinstance⟩ := ihl hleft
            obtain ⟨hextends', hinstance'⟩ := ihr hright
            refine ⟨hextends.trans hextends', ?_⟩
            intro later hlater
            -- What the left side bound is still bound when the right side is done.
            rw [substitute, hinstance later (hextends'.trans hlater), hinstance' later hlater, hop]
          · simp at h
      | letter c => cases h
      | negation f => cases h

/-- **Matching is complete**: a pattern with plain letters matches each of its instances. -/
theorem match?_complete {σ : Char → Formula} {pattern : Formula} (hpattern : pattern.Plain)
    {bindings : Bindings} (h : bindings.AgreesWith σ) :
    ∃ bindings', pattern.match? (pattern.substitute σ) bindings = some bindings' ∧
      bindings'.AgreesWith σ := by
  induction pattern generalizing bindings with
  | letter c =>
      have hc : isPlainLetter c = true := hpattern
      rw [substitute, match?, if_pos hc]
      exact bind?_complete h c
  | negation pattern ih => exact ih hpattern h
  | compound op left right ihl ihr =>
      obtain ⟨between, hleft, hbetween⟩ := ihl hpattern.1 h
      obtain ⟨bindings', hright, hbindings'⟩ := ihr hpattern.2 hbetween
      refine ⟨bindings', ?_, hbindings'⟩
      rw [substitute, match?, if_pos rfl, hleft, Option.bind_some, hright]

/-- A pattern with a letter that cannot stand for anything matches nothing. -/
theorem plain_of_match? {pattern f : Formula} {bindings bindings' : Bindings}
    (h : pattern.match? f bindings = some bindings') : pattern.Plain := by
  induction pattern generalizing f bindings bindings' with
  | letter c =>
      rw [match?] at h
      split at h
      · assumption
      · simp at h
  | negation pattern ih =>
      cases f with
      | negation f => exact ih h
      | letter c => cases h
      | compound op left right => cases h
  | compound op left right ihl ihr =>
      cases f with
      | compound op' left' right' =>
          rw [match?] at h
          split at h
          · obtain ⟨between, hleft, hright⟩ := Option.bind_eq_some_iff.1 h
            exact ⟨ihl hleft, ihr hright⟩
          · simp at h
      | letter c => cases h
      | negation f => cases h

end Formula

/-- **A schema with plain letters admits every instance of its pattern.** -/
theorem Schema.admits_substitute {s : Schema} (hs : s.pattern.Plain) (σ : Char → Formula) :
    s.admits (s.pattern.substitute σ) = true := by
  have hnone : Bindings.AgreesWith [] σ := by
    intro c f h
    simp at h
  obtain ⟨bindings, hmatch, -⟩ := Formula.match?_complete hs hnone
  rw [admits, hmatch]
  rfl

/-- **What a schema admits is an instance of its pattern.** -/
theorem Schema.exists_substitute_of_admits {s : Schema} {f : Formula} (h : s.admits f = true) :
    ∃ σ, s.pattern.substitute σ = f := by
  obtain ⟨bindings, hmatch⟩ := Option.isSome_iff_exists.1 h
  exact ⟨bindings.substitution, (Formula.match?_sound hmatch).2 bindings (Bindings.Extends.refl bindings)⟩

/-- **What a schema admits** are the instances of its pattern, when the letters of the pattern are plain, and nothing
otherwise. -/
theorem Schema.admits_iff {s : Schema} {f : Formula} :
    s.admits f = true ↔ s.pattern.Plain ∧ ∃ σ, s.pattern.substitute σ = f := by
  constructor
  · intro h
    obtain ⟨bindings, hmatch⟩ := Option.isSome_iff_exists.1 h
    exact ⟨Formula.plain_of_match? hmatch, exists_substitute_of_admits h⟩
  · rintro ⟨hplain, σ, rfl⟩
    exact admits_substitute hplain σ

end PropositionalCalculus
