import PropositionalCalculus.Proofs.Schema

/-!
# Formulas that two schemas admit

A formula that two schemas admit solves an equation between their patterns, once the letters of one pattern are told
apart from those of the other. An equation is taken apart as long as both sides begin with the same operator
(`Equation.reduct`). What is left are letters and what they stand for, and that is put in their place everywhere. There
is no solution where the operators differ, and none where a letter would have to stand for a larger formula that it
is part of, for no formula contains itself (`Formula.size_lt_of_mentions`).

`overlapWithin` does so for a limited number of steps and says what all solutions have in common
(`overlapWithin_covers`). For two schemas this is what all formulas look like that both of them admit
(`Schema.exists_covers_overlap`).
-/

set_option autoImplicit false

namespace PropositionalCalculus

namespace Formula

/-- Whether the letter stands in the formula. -/
def mentions (c : Char) : Formula → Bool
  | letter d => d == c
  | negation body => body.mentions c
  | compound _ left right => left.mentions c || right.mentions c

/-- The substitution that puts a formula in the place of one letter. -/
def replacing (c : Char) (g : Formula) (d : Char) : Formula :=
  if d = c then g else letter d

/-- The formula with small letters. -/
def apart (f : Formula) : Formula :=
  f.substitute fun c => letter c.toLower

variable {σ τ : Char → Formula} {c : Char} {f g : Formula}

/-! ## Letters and what they stand for -/

/-- What a letter stands for is not larger than what any formula with the letter becomes. -/
theorem size_le_of_mentions (h : f.mentions c = true) : (σ c).size ≤ (f.substitute σ).size := by
  induction f with
  | letter d =>
      obtain rfl : d = c := eq_of_beq h
      exact Nat.le_refl _
  | negation body ih => exact Nat.le_succ_of_le (ih h)
  | compound op left right ihl ihr =>
      rw [substitute, size]
      rcases Bool.or_eq_true_iff.1 h with hleft | hright
      · have := ihl hleft
        omega
      · have := ihr hright
        omega

/-- **No formula contains itself**: what a letter stands for is smaller than what a larger formula with the letter
becomes. -/
theorem size_lt_of_mentions (h : f.mentions c = true) (hf : f ≠ letter c) :
    (σ c).size < (f.substitute σ).size := by
  cases f with
  | letter d =>
      obtain rfl : d = c := eq_of_beq h
      exact absurd rfl hf
  | negation body => exact Nat.lt_succ_of_le (size_le_of_mentions (f := body) h)
  | compound op left right =>
      rw [substitute, size]
      rcases Bool.or_eq_true_iff.1 h with hleft | hright
      · have := size_le_of_mentions (σ := σ) hleft
        omega
      · have := size_le_of_mentions (σ := σ) hright
        omega

/-- Putting in the place of a letter what it stands for makes no difference. -/
theorem substitute_replacing (h : σ c = g.substitute σ) (f : Formula) :
    (f.substitute (replacing c g)).substitute σ = f.substitute σ := by
  have hsame : (fun d => (replacing c g d).substitute σ) = σ := by
    funext d
    by_cases hd : d = c
    · rw [replacing, if_pos hd, hd, h]
    · rw [replacing, if_neg hd, substitute]
  rw [substitute_substitute, hsame]

/-- Only what is put in the place of plain letters matters to a plain formula. -/
theorem substitute_congr_of_plain (h : ∀ c, isPlainLetter c = true → σ c = τ c) (hf : f.Plain) :
    f.substitute σ = f.substitute τ := by
  induction f with
  | letter c => exact h c hf
  | negation body ih => rw [substitute, substitute, ih hf]
  | compound op left right ihl ihr => rw [substitute, substitute, ihl hf.1, ihr hf.2]

/-- A small letter is not plain, and the plain letter can be told from it. -/
theorem toLower_of_isPlainLetter (hc : isPlainLetter c = true) :
    isPlainLetter c.toLower = false ∧ c.toLower.toUpper = c := by
  have hall : ∀ k : Fin 26, isPlainLetter (Char.ofNat (k + 65)).toLower = false ∧
      (Char.ofNat (k + 65)).toLower.toUpper = Char.ofNat (k + 65) := by
    decide
  change decide (65 ≤ c.val ∧ c.val ≤ 90) = true at hc
  rw [decide_eq_true_eq, UInt32.le_iff_toNat_le, UInt32.le_iff_toNat_le] at hc
  change 65 ≤ c.toNat ∧ c.toNat ≤ 90 at hc
  have hletter := hall ⟨c.toNat - 65, by omega⟩
  rwa [show c.toNat - 65 + 65 = c.toNat by omega, Char.ofNat_toNat] at hletter

/-- **An instance of two plain patterns solves the equation between them**, when one of them has small letters. -/
theorem exists_substitute_apart (hf : f.Plain) (hg : g.Plain) (h : f.substitute σ = g.substitute τ) :
    ∃ ρ, f.substitute ρ = f.substitute σ ∧ g.apart.substitute ρ = f.substitute σ := by
  refine ⟨fun c => if isPlainLetter c then σ c else τ c.toUpper, ?_, ?_⟩
  · exact substitute_congr_of_plain (fun c hc => if_pos hc) hf
  · rw [h, apart, substitute_substitute]
    apply substitute_congr_of_plain _ hg
    intro c hc
    obtain ⟨hsmall, hback⟩ := toLower_of_isPlainLetter hc
    simp only [substitute, hsmall, Bool.false_eq_true, if_false, hback]

end Formula

/-! ## Equations between patterns -/

/-- An equation between two patterns. -/
structure Equation where
  left : Formula
  right : Formula

namespace Equation

open Formula

/-- Under the substitution both sides are the same. -/
def SolvedBy (σ : Char → Formula) (e : Equation) : Prop :=
  e.left.substitute σ = e.right.substitute σ

/-- Puts formulas in the place of letters on both sides. -/
def substitute (σ : Char → Formula) (e : Equation) : Equation :=
  ⟨e.left.substitute σ, e.right.substitute σ⟩

/-- What an equation comes to. -/
inductive Reduct where
  | contradiction
  /-- All of these equations. -/
  | equations (parts : List Equation)
  /-- The letter stands for the formula. -/
  | binding (c : Char) (g : Formula)

/-- What it comes to that the letter stands for the formula. -/
def bindingOf (c : Char) (g : Formula) : Reduct :=
  if g = letter c then .equations []
  else if g.mentions c then .contradiction
  else .binding c g

/-- What the equation comes to. -/
def reduct : Equation → Reduct
  | ⟨.letter c, g⟩ => bindingOf c g
  | ⟨f, .letter c⟩ => bindingOf c f
  | ⟨.negation f, .negation g⟩ => .equations [⟨f, g⟩]
  | ⟨.compound op left right, .compound op' left' right'⟩ =>
      if op = op' then .equations [⟨left, left'⟩, ⟨right, right'⟩] else .contradiction
  | ⟨.negation _, .compound _ _ _⟩ => .contradiction
  | ⟨.compound _ _ _, .negation _⟩ => .contradiction

/-- Under the substitution it is as the reduct says. -/
def Reduct.SolvedBy (σ : Char → Formula) : Reduct → Prop
  | contradiction => False
  | equations parts => ∀ e ∈ parts, e.SolvedBy σ
  | binding c g => σ c = g.substitute σ

variable {σ : Char → Formula}

theorem solvedBy_bindingOf {c : Char} {g : Formula} (h : σ c = g.substitute σ) : (bindingOf c g).SolvedBy σ := by
  rw [bindingOf]
  split
  · exact List.forall_mem_nil _
  · rename_i hg
    split
    · rename_i hmentions
      exact absurd (congrArg size h) (Nat.ne_of_lt (size_lt_of_mentions hmentions hg))
    · exact h

/-- **What solves an equation is as its reduct says.** -/
theorem solvedBy_reduct {e : Equation} (h : e.SolvedBy σ) : e.reduct.SolvedBy σ := by
  -- The cases are those of `reduct`.
  match e, h with
  | ⟨.letter c, g⟩, h => exact solvedBy_bindingOf h
  | ⟨.negation f, .letter c⟩, h => exact solvedBy_bindingOf h.symm
  | ⟨.compound op left right, .letter c⟩, h => exact solvedBy_bindingOf h.symm
  | ⟨.negation f, .negation g⟩, h => exact List.forall_mem_singleton.2 (Formula.negation.inj h)
  | ⟨.compound op left right, .compound op' left' right'⟩, h =>
      obtain ⟨hop, hleft, hright⟩ := Formula.compound.inj h
      rw [reduct, if_pos hop]
      exact List.forall_mem_cons.2 ⟨hleft, List.forall_mem_singleton.2 hright⟩
  | ⟨.negation f, .compound op left right⟩, h => exact nomatch h
  | ⟨.compound op left right, .negation f⟩, h => exact nomatch h

end Equation

/-! ## What solutions have in common -/

/-- What is known of the formulas that a pattern becomes under the solutions of equations. -/
inductive Overlap where
  /-- Nothing yet. -/
  | undecided
  /-- There are none. -/
  | empty
  /-- They are instances of this pattern. -/
  | instancesOf (pattern : Formula)
deriving DecidableEq

/-- What is known is right of a formula, for which the letters stand for what the substitution says. -/
def Overlap.Covers (σ : Char → Formula) (f : Formula) : Overlap → Prop
  | undecided => True
  | empty => False
  | instancesOf pattern => pattern.substitute σ = f

/-- What the pattern becomes under the solutions of the equations, as far as it is found within a number of steps. -/
def overlapWithin : Nat → List Equation → Formula → Overlap
  | 0, _, _ => .undecided
  | _ + 1, [], pattern => .instancesOf pattern
  | steps + 1, e :: rest, pattern =>
      match e.reduct with
      | .contradiction => .empty
      | .equations parts => overlapWithin steps (parts ++ rest) pattern
      | .binding c g =>
          overlapWithin steps (rest.map (·.substitute (Formula.replacing c g)))
            (pattern.substitute (Formula.replacing c g))

/-- **What is found covers every solution.** -/
theorem overlapWithin_covers {σ : Char → Formula} (steps : Nat) {equations : List Equation} (pattern : Formula)
    (h : ∀ e ∈ equations, e.SolvedBy σ) :
    (overlapWithin steps equations pattern).Covers σ (pattern.substitute σ) := by
  induction steps generalizing equations pattern with
  | zero => trivial
  | succ steps ih =>
      cases equations with
      | nil => exact rfl
      | cons e rest =>
          obtain ⟨he, hrest⟩ := List.forall_mem_cons.1 h
          have hreduct := e.solvedBy_reduct he
          rw [overlapWithin]
          cases hcase : e.reduct with
          | contradiction =>
              rw [hcase] at hreduct
              exact hreduct.elim
          | equations parts =>
              rw [hcase] at hreduct
              exact ih pattern (List.forall_mem_append.2 ⟨hreduct, hrest⟩)
          | binding c g =>
              rw [hcase] at hreduct
              -- The substitution solves the equations in which the letter is replaced, too.
              rw [← Formula.substitute_replacing hreduct pattern]
              apply ih
              intro e' he'
              obtain ⟨e, hmem, rfl⟩ := List.mem_map.1 he'
              change (e.left.substitute _).substitute σ = (e.right.substitute _).substitute σ
              rw [Formula.substitute_replacing hreduct, Formula.substitute_replacing hreduct]
              exact hrest e hmem

namespace Schema

/-- What the formulas look like that both schemas admit. -/
def overlap (steps : Nat) (s t : Schema) : Overlap :=
  overlapWithin steps [⟨s.pattern, t.pattern.apart⟩] s.pattern

/-- **What is found covers every formula that both schemas admit.** -/
theorem exists_covers_overlap {s t : Schema} {f : Formula} (steps : Nat) (hs : s.admits f = true)
    (ht : t.admits f = true) : ∃ σ, (s.overlap steps t).Covers σ f := by
  obtain ⟨hplain, σ, rfl⟩ := admits_iff.1 hs
  obtain ⟨hplain', τ, hτ⟩ := admits_iff.1 ht
  obtain ⟨ρ, hleft, hright⟩ := Formula.exists_substitute_apart hplain hplain' hτ.symm
  have hsolved : ∀ e ∈ [Equation.mk s.pattern t.pattern.apart], e.SolvedBy ρ :=
    List.forall_mem_singleton.2 (hleft.trans hright.symm)
  have hcovers := overlapWithin_covers steps s.pattern hsolved
  rw [hleft] at hcovers
  exact ⟨ρ, hcovers⟩

end Schema

end PropositionalCalculus
