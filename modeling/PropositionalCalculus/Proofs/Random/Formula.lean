import Mathlib.Algebra.Group.Nat.Defs
import Mathlib.Logic.Function.Iterate
import PropositionalCalculus.Formula.Traversal
import PropositionalCalculus.Proofs.Line.Reading
import PropositionalCalculus.Random.Formula

/-!
# What random formulas are like

The numbers that are drawn below a bound are below it, whatever the draws give (`Generator.chosen_lt`): where the low
half of the product leaves room for a carry, the high half is not the largest. So a drawn number always finds its
operator. `Generator.formulaByTable?` draws numbers that are not known to be below their bound, looks the operators up
in a table, and finds every one of them (`Generator.formulaByTable?_eq`).

Whatever the generator, a random formula is nested no deeper than it may be, has plain letters, and is read back when
it is written on a line. The draws that it takes are bounded by its depth (`Generator.formula_within_bounds`).
-/

set_option autoImplicit false

namespace PropositionalCalculus

/-- The connectives in the order in which they are drawn. -/
def Connective.table : List Connective :=
  [conjunction, disjunction, implication, equivalence]

/-- The connective for a number behind that of negation, which is zero, if there is one. -/
def Connective.numbered? (choice : Nat) : Option Connective :=
  table[choice - 1]?

theorem Connective.numbered?_val {choice : Fin 5} (h : choice ≠ 0) :
    numbered? choice.val = some (ofFin (choice.pred h)) := by
  revert choice
  decide

namespace Generator

/-! ## Numbers -/

/-- The number that the draws give for a bound; the second one counts where it may carry. -/
def chosen (bound : Nat) (first second : UInt32) : Nat :=
  if mayCarry bound first then corrected bound first second else scaled bound first

/-- **The number is below the bound, whatever is drawn.** -/
theorem chosen_lt {bound : Nat} (pos : 0 < bound) (first second : UInt32) : chosen bound first second < bound := by
  unfold chosen
  split
  · rename_i carry
    exact corrected_lt carry second
  · exact scaled_lt pos first

/-- Draws a number for a bound, without saying that it is below. -/
def number (bound : Nat) (g : Generator) : Nat × Generator :=
  (chosen bound g.next32.1 g.next32.2.next32.1,
    if mayCarry bound g.next32.1 then g.next32.2.next32.2 else g.next32.2)

theorem number_eq_below (bound : Nat) (pos : 0 < bound) (g : Generator) :
    g.number bound = ((g.below bound pos).1.val, (g.below bound pos).2) := by
  by_cases carry : mayCarry bound g.next32.1 = true <;> simp [number, chosen, below, carry]

/-- The letters that are drawn are among `A` to `Z`. -/
theorem isPlainLetter_letter (g : Generator) : Formula.isPlainLetter g.letter.1 = true := by
  have hplain : ∀ k : Fin 26, Formula.isPlainLetter (Char.ofNat ('A'.toNat + k.val)) = true := by decide
  exact hplain _

/-! ## The draws -/

/-- The second generator is the first one after some draws, at most the given number. -/
def Draws (most : Nat) (g g' : Generator) : Prop :=
  ∃ count ≤ most, g' = advance^[count] g

theorem Draws.trans {most more : Nat} {g g' g'' : Generator} (h : Draws most g g') (h' : Draws more g' g'') :
    Draws (most + more) g g'' := by
  obtain ⟨count, hcount, rfl⟩ := h
  obtain ⟨others, hothers, rfl⟩ := h'
  refine ⟨others + count, by omega, ?_⟩
  rw [Function.iterate_add_apply]

theorem Draws.mono {most more : Nat} {g g' : Generator} (h : Draws most g g') (hle : most ≤ more) :
    Draws more g g' := by
  obtain ⟨count, hcount, rfl⟩ := h
  exact ⟨count, Nat.le_trans hcount hle, rfl⟩

theorem draws_quarter (g : Generator) : Draws 2 g g.quarter.2 :=
  ⟨2, Nat.le_refl 2, rfl⟩

theorem draws_below (bound : Nat) (pos : 0 < bound) (g : Generator) : Draws 2 g (g.below bound pos).2 := by
  unfold below
  split
  · exact ⟨2, Nat.le_refl 2, rfl⟩
  · exact ⟨1, by decide, rfl⟩

theorem draws_letter (g : Generator) : Draws 2 g g.letter.2 :=
  draws_below 26 _ g

/-! ## Formulas -/

section Equations

variable {g : Generator} (depth : Nat)

theorem formula_of_quarter (hletter : g.quarter.1 = true) :
    formula (depth + 1) g = (.letter g.quarter.2.letter.1, g.quarter.2.letter.2) := by
  rw [formula, if_pos hletter]

variable {drawn : Fin 5 × Generator}

theorem formula_of_zero (hletter : ¬g.quarter.1 = true) (hdrawn : g.quarter.2.below 5 (by decide) = drawn)
    (hnegation : drawn.1 = 0) :
    formula (depth + 1) g = (.negation (formula depth drawn.2).1, (formula depth drawn.2).2) := by
  rw [formula, if_neg hletter, hdrawn]
  exact dif_pos hnegation

theorem formula_of_ne_zero (hletter : ¬g.quarter.1 = true) (hdrawn : g.quarter.2.below 5 (by decide) = drawn)
    (hnegation : drawn.1 ≠ 0) :
    formula (depth + 1) g = (.compound (Connective.ofFin (drawn.1.pred hnegation)) (formula depth drawn.2).1
      (formula depth (formula depth drawn.2).2).1, (formula depth (formula depth drawn.2).2).2) := by
  rw [formula, if_neg hletter, hdrawn]
  exact dif_neg hnegation

end Equations

/-- **How a formula is drawn above the limit**: it is a letter, or an operator is chosen and its operands are drawn,
the left one before the right one. -/
theorem formula_succ_cases (depth : Nat) (g : Generator) :
    (∃ h, Draws 2 g h ∧ formula (depth + 1) g = (.letter h.letter.1, h.letter.2)) ∨
      (∃ h, Draws 4 g h ∧
        formula (depth + 1) g = (.negation (formula depth h).1, (formula depth h).2)) ∨
      ∃ h op, Draws 4 g h ∧
        formula (depth + 1) g = (.compound op (formula depth h).1 (formula depth (formula depth h).2).1,
          (formula depth (formula depth h).2).2) := by
  by_cases hletter : g.quarter.1 = true
  · exact Or.inl ⟨g.quarter.2, draws_quarter g, formula_of_quarter depth hletter⟩
  · have hdraws := (draws_quarter g).trans (draws_below 5 (by decide) g.quarter.2)
    by_cases hnegation : (g.quarter.2.below 5 (by decide)).1 = 0
    · exact Or.inr (Or.inl ⟨_, hdraws, formula_of_zero depth hletter rfl hnegation⟩)
    · exact Or.inr (Or.inr ⟨_, _, hdraws, formula_of_ne_zero depth hletter rfl hnegation⟩)

/-- **The formula is nested no deeper than it may be.** -/
theorem height_formula_le (depth : Nat) (g : Generator) : (formula depth g).1.height ≤ depth := by
  induction depth generalizing g with
  | zero => exact Nat.le_refl 0
  | succ depth ih =>
      rcases formula_succ_cases depth g with ⟨h, -, heq⟩ | ⟨h, -, heq⟩ | ⟨h, op, -, heq⟩
      · rw [heq]
        exact Nat.zero_le _
      · rw [heq]
        exact Nat.succ_le_succ (ih h)
      · rw [heq]
        apply Nat.succ_le_succ
        exact Nat.max_le.mpr ⟨ih h, ih _⟩

/-- **The formula has plain letters.** -/
theorem plain_formula (depth : Nat) (g : Generator) : (formula depth g).1.Plain := by
  induction depth generalizing g with
  | zero => exact isPlainLetter_letter g
  | succ depth ih =>
      rcases formula_succ_cases depth g with ⟨h, -, heq⟩ | ⟨h, -, heq⟩ | ⟨h, op, -, heq⟩
      · rw [heq]
        exact isPlainLetter_letter h
      · rw [heq]
        exact ih h
      · rw [heq]
        exact ⟨ih h, ih _⟩

/-- **A formula takes a bounded number of draws.** A letter takes two at most, and an operator four and those of its
operands. -/
theorem draws_formula (depth : Nat) (g : Generator) : Draws (6 * 2 ^ depth - 4) g (formula depth g).2 := by
  induction depth generalizing g with
  | zero => exact draws_letter g
  | succ depth ih =>
      have hpow : 2 ^ (depth + 1) = 2 * 2 ^ depth := Nat.pow_succ'
      have hpos : 0 < 2 ^ depth := Nat.two_pow_pos depth
      rcases formula_succ_cases depth g with ⟨h, hdraws, heq⟩ | ⟨h, hdraws, heq⟩ | ⟨h, op, hdraws, heq⟩
      · rw [heq]
        apply (hdraws.trans (draws_letter h)).mono
        omega
      · rw [heq]
        apply (hdraws.trans (ih h)).mono
        omega
      · rw [heq]
        apply (hdraws.trans ((ih h).trans (ih _))).mono
        omega

/-- Draws a formula as `formula` does, with numbers that are not said to be below their bound. An operator is looked up
by its number, and there is no formula when the number is too large. -/
def formulaByTable? : Nat → Generator → Option (Formula × Generator)
  | 0, g => some (.letter g.letter.1, g.letter.2)
  | depth + 1, g =>
      if g.quarter.1 then some (.letter g.quarter.2.letter.1, g.quarter.2.letter.2)
      else
        let drawn := g.quarter.2.number 5
        if drawn.1 = 0 then
          (formulaByTable? depth drawn.2).map fun body => (.negation body.1, body.2)
        else
          (Connective.numbered? drawn.1).bind fun op =>
            (formulaByTable? depth drawn.2).bind fun left =>
              (formulaByTable? depth left.2).map fun right => (.compound op left.1 right.1, right.2)

section Equations

variable {g h : Generator} {choice : Nat} (depth : Nat)

theorem formulaByTable?_of_zero (hletter : ¬g.quarter.1 = true) (hdrawn : g.quarter.2.number 5 = (choice, h))
    (hnegation : choice = 0) :
    formulaByTable? (depth + 1) g = (formulaByTable? depth h).map fun body => (.negation body.1, body.2) := by
  rw [formulaByTable?, if_neg hletter, hdrawn]
  exact if_pos hnegation

theorem formulaByTable?_of_ne_zero (hletter : ¬g.quarter.1 = true) (hdrawn : g.quarter.2.number 5 = (choice, h))
    (hnegation : choice ≠ 0) :
    formulaByTable? (depth + 1) g =
      (Connective.numbered? choice).bind fun op =>
        (formulaByTable? depth h).bind fun left =>
          (formulaByTable? depth left.2).map fun right => (.compound op left.1 right.1, right.2) := by
  rw [formulaByTable?, if_neg hletter, hdrawn]
  exact if_neg hnegation

end Equations

/-- **Every operator is found in the table.** -/
theorem formulaByTable?_eq (depth : Nat) (g : Generator) : formulaByTable? depth g = some (formula depth g) := by
  induction depth generalizing g with
  | zero => rw [formulaByTable?, formula]
  | succ depth ih =>
      by_cases hletter : g.quarter.1 = true
      · rw [formulaByTable?, if_pos hletter, formula_of_quarter depth hletter]
      · have hdrawn := number_eq_below 5 (by decide) g.quarter.2
        by_cases hnegation : (g.quarter.2.below 5 (by decide)).1 = 0
        · have hzero : (g.quarter.2.below 5 (by decide)).1.val = 0 := by rw [hnegation, Fin.val_zero]
          rw [formulaByTable?_of_zero depth hletter hdrawn hzero, ih, Option.map_some,
            formula_of_zero depth hletter rfl hnegation]
        · have hpos := Fin.val_ne_zero_iff.mpr hnegation
          rw [formulaByTable?_of_ne_zero depth hletter hdrawn hpos, Connective.numbered?_val hnegation,
            Option.bind_some, ih, Option.bind_some, ih, Option.map_some,
            formula_of_ne_zero depth hletter rfl hnegation]

/-- **Random formulas stay within bounds**, for every generator. A number that is drawn below a bound is below it, so
that every operator is found in the table; the formula is nested no deeper than it may be after a bounded number of
draws, has plain letters only, and is read back in every notation when it is written on a line, whatever comes
behind. -/
theorem formula_within_bounds (g : Generator) (depth : Nat) :
    (∀ bound, 0 < bound → ∀ first second, chosen bound first second < bound) ∧
      formulaByTable? depth g = some (formula depth g) ∧
      Draws (6 * 2 ^ depth - 4) g (formula depth g).2 ∧
      (formula depth g).1.depth ≤ depth ∧
      (formula depth g).1.Plain ∧
      ∀ (n : Notation) (rest : Source),
        n.readLine (.append ((formula depth g).1.line n) rest) = (.ok (some (formula depth g).1), rest) := by
  refine ⟨?_, formulaByTable?_eq depth g, draws_formula depth g, ?_, plain_formula depth g, ?_⟩
  · intro bound pos first second
    exact chosen_lt pos first second
  · rw [Formula.depth_eq_height]
    exact height_formula_le depth g
  · intro n rest
    exact Notation.readLine_line (plain_formula depth g) rest

end Generator

end PropositionalCalculus
