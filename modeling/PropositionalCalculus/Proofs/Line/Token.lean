import PropositionalCalculus.Line.Token
import PropositionalCalculus.Proofs.Formula.Bytes

/-!
# Tokens of the characters in use

Every symbol of a plain formula is read as the token it was written for, and a character is used by a
notation exactly when its token is one that the notation knows (`Token.uses_iff`).
-/

set_option autoImplicit false

namespace PropositionalCalculus.Line.Token

@[simp] theorem ofChar_letter {c : Char} (hc : Formula.isPlainLetter c = true) : ofChar c = letter c := by
  rw [ofChar, if_pos hc]

@[simp] theorem ofChar_negation : ofChar Negation.sign = negation := by
  decide

@[simp] theorem ofChar_sign (op : Connective) : ofChar op.sign = connective op := by
  cases op <;> decide

@[simp] theorem ofChar_opening : ofChar '(' = opening := by
  decide

@[simp] theorem ofChar_closing : ofChar ')' = closing := by
  decide

/-- The character of a token that was read. -/
theorem eq_char {c : Char} {t : Token} (h : ofChar c = t) : c = t.char := by
  rw [← h, char_ofChar]

theorem isPlainLetter_of_ofChar {c d : Char} (h : ofChar c = letter d) :
    Formula.isPlainLetter d = true := by
  by_cases hc : Formula.isPlainLetter c = true
  · rw [ofChar_letter hc] at h
    obtain rfl : c = d := Token.letter.inj h
    exact hc
  · rw [ofChar, if_neg hc] at h
    repeat' split at h
    all_goals exact nomatch h

/-- The tokens that a notation knows. -/
def KnownTo (n : Notation) : Token → Prop
  | letter _ => True
  | negation => True
  | connective _ => True
  | opening => n = .bracketed
  | closing => n = .bracketed
  | foreign _ => False

/-- **A notation uses a character when it knows its token.** -/
theorem uses_iff {n : Notation} {c : Char} : n.Uses c ↔ (ofChar c).KnownTo n := by
  constructor
  · rintro (hc | hc | ⟨rfl, hc⟩)
    · rw [ofChar_letter hc]
      trivial
    · simp only [List.mem_cons, List.not_mem_nil, or_false] at hc
      rcases hc with rfl | rfl | rfl | rfl | rfl <;> trivial
    · simp only [List.mem_cons, List.not_mem_nil, or_false] at hc
      rcases hc with rfl | rfl <;> rfl
  · intro known
    cases ht : ofChar c with
    | letter d =>
        rw [eq_char ht]
        exact Or.inl (isPlainLetter_of_ofChar ht)
    | negation =>
        rw [eq_char ht]
        exact n.uses_negation
    | connective op =>
        rw [eq_char ht]
        exact n.uses_sign op
    | opening =>
        rw [ht] at known
        rw [eq_char ht]
        exact Or.inr (Or.inr ⟨known, by decide⟩)
    | closing =>
        rw [ht] at known
        rw [eq_char ht]
        exact Or.inr (Or.inr ⟨known, by decide⟩)
    | foreign d =>
        rw [ht] at known
        exact known.elim

end PropositionalCalculus.Line.Token
