import PropositionalCalculus.Formula.Text

/-!
# The bytes of written formulas

`Formula.bytes` is the text of a formula as it stands in a file. A plain formula is written with few
characters (`Notation.Uses`), each of which is one visible byte, so that its bytes and its symbols are the
same thing twice (`Formula.map_ofUInt8_bytes`) and hold neither blanks nor line ends.
-/

set_option autoImplicit false

namespace PropositionalCalculus

/-- The characters that a notation uses: the letters, the five signs, and brackets in one notation only. -/
def Notation.Uses (n : Notation) (c : Char) : Prop :=
  Formula.isPlainLetter c = true ∨ c ∈ ['-', '.', '+', '>', '='] ∨ n = .bracketed ∧ c ∈ ['(', ')']

instance (n : Notation) (c : Char) : Decidable (n.Uses c) :=
  inferInstanceAs (Decidable (_ ∨ _ ∨ _ ∧ _))

theorem Notation.uses_sign (n : Notation) (op : Connective) : n.Uses op.sign := by
  refine Or.inr (Or.inl ?_)
  cases op <;> decide

theorem Notation.uses_negation (n : Notation) : n.Uses Negation.sign :=
  Or.inr (Or.inl (by decide))

/-- A character in use is a visible one of the first 127. -/
theorem Notation.Uses.visible {n : Notation} {c : Char} (h : n.Uses c) :
    0x20 < c.toNat ∧ c.toNat < 0x7F := by
  rcases h with h | h | ⟨-, h⟩
  · change decide (65 ≤ c.val ∧ c.val ≤ 90) = true at h
    rw [decide_eq_true_eq, UInt32.le_iff_toNat_le, UInt32.le_iff_toNat_le] at h
    change 65 ≤ c.toNat ∧ c.toNat ≤ 90 at h
    omega
  · simp only [List.mem_cons, List.not_mem_nil, or_false] at h
    rcases h with rfl | rfl | rfl | rfl | rfl <;> decide
  · simp only [List.mem_cons, List.not_mem_nil, or_false] at h
    rcases h with rfl | rfl <;> decide

theorem ofUInt8_toUInt8 {c : Char} (h : c.toNat < 0x7F) : Char.ofUInt8 c.toUInt8 = c := by
  apply Char.ext
  apply UInt32.toNat_inj.1
  change c.val.toUInt8.toUInt32.toNat = c.val.toNat
  rw [UInt8.toNat_toUInt32, UInt32.toNat_toUInt8]
  exact Nat.mod_eq_of_lt (Nat.lt_trans h (by decide))

theorem ofUInt8_injective {a b : UInt8} (h : Char.ofUInt8 a = Char.ofUInt8 b) : a = b := by
  apply UInt8.toNat_inj.1
  have values : a.toUInt32.toNat = b.toUInt32.toNat := congrArg (fun c : Char => c.val.toNat) h
  rwa [UInt8.toNat_toUInt32, UInt8.toNat_toUInt32] at values

namespace Formula

/-- The text of the formula as bytes. -/
def bytes (n : Notation) (f : Formula) : List UInt8 :=
  (f.text n).toUTF8.data.toList

variable {n : Notation} {f : Formula}

theorem uses_of_mem_symbols (hf : f.Plain) {c : Char} (hc : c ∈ f.symbols n) : n.Uses c := by
  induction f with
  | letter d =>
      rw [symbols, List.mem_singleton] at hc
      subst hc
      exact Or.inl hf
  | negation body ih =>
      have sorted : c = Negation.sign ∨ c ∈ body.symbols n := by
        cases n <;> simpa [symbols, or_comm] using hc
      rcases sorted with rfl | hc
      · exact n.uses_negation
      · exact ih hf hc
  | compound op left right ihl ihr =>
      have sorted : c ∈ left.symbols n ∨ c ∈ right.symbols n ∨ c = op.sign ∨
          n = .bracketed ∧ c ∈ ['(', ')'] := by
        cases n <;> grind [symbols]
      rcases sorted with hc | hc | rfl | hc
      · exact ihl hf.1 hc
      · exact ihr hf.2 hc
      · exact n.uses_sign op
      · exact Or.inr (Or.inr hc)

theorem bytes_eq_flatMap (n : Notation) (f : Formula) :
    f.bytes n = (f.symbols n).flatMap String.utf8EncodeChar := by
  rw [bytes, String.toUTF8_eq_toByteArray, ← String.utf8Encode_toList, toList_text, List.utf8Encode,
    List.toList_data_toByteArray]

/-- A character of the first 127 is one byte. -/
theorem utf8EncodeChar_of_visible {c : Char} (h : c.toNat < 0x7F) :
    String.utf8EncodeChar c = [c.toUInt8] := by
  rw [Char.toNat] at h
  rw [String.utf8EncodeChar, if_pos (by omega)]
  rfl

/-- Every symbol of a plain formula is one byte. -/
theorem bytes_eq_map (hf : f.Plain) : f.bytes n = (f.symbols n).map Char.toUInt8 := by
  rw [bytes_eq_flatMap, List.map_eq_flatMap, List.flatMap, List.flatMap]
  congr 1
  apply List.map_congr_left
  intro c hc
  exact utf8EncodeChar_of_visible (uses_of_mem_symbols hf hc).visible.2

/-- **The bytes of a plain formula stand for its symbols.** -/
theorem map_ofUInt8_bytes (hf : f.Plain) : (f.bytes n).map Char.ofUInt8 = f.symbols n := by
  rw [bytes_eq_map hf, List.map_map]
  have kept : ∀ c ∈ f.symbols n, (Char.ofUInt8 ∘ Char.toUInt8) c = id c := by
    intro c hc
    exact ofUInt8_toUInt8 (uses_of_mem_symbols hf hc).visible.2
  rw [List.map_congr_left kept, List.map_id]

/-- A byte of a plain formula is neither a blank nor a line end. -/
theorem lt_of_mem_bytes (hf : f.Plain) {b : UInt8} (hb : b ∈ f.bytes n) : 0x20 < b.toNat := by
  rw [bytes_eq_map hf, List.mem_map] at hb
  obtain ⟨c, hc, rfl⟩ := hb
  obtain ⟨low, high⟩ := (uses_of_mem_symbols hf hc).visible
  change 0x20 < c.val.toUInt8.toNat
  rw [UInt32.toNat_toUInt8]
  rw [Char.toNat] at low high
  omega

end Formula

end PropositionalCalculus
