import PropositionalCalculus.Line
import PropositionalCalculus.Proofs.Line.Polish
import PropositionalCalculus.Proofs.Line.Bracketed
import PropositionalCalculus.Proofs.Line.ReversePolish

/-!
# Reading what was written

In every notation a line gives a formula exactly when the formula is plain and the line, without its blanks,
is the formula's text (`readLine_eq_formula_iff`). So a formula that is written is read back, a line that is
read is written again without its blanks, and no two plain formulas have the same text.
-/

set_option autoImplicit false

namespace PropositionalCalculus

open Line

/-- Each notation is read by an automaton that recognizes it. -/
theorem Notation.exists_recognizes (n : Notation) :
    ∃ (σ : Type) (m : Automaton σ) (After : σ → List Char → Prop),
      n.readLine = m.readLine ∧ m.Recognizes n After := by
  cases n with
  | polish => exact ⟨_, _, _, rfl, Polish.recognizes⟩
  | bracketed => exact ⟨_, _, _, rfl, Bracketed.recognizes⟩
  | reversePolish => exact ⟨_, _, _, rfl, ReversePolish.recognizes⟩

/-- The formula on a line of its own. -/
def Formula.line (n : Notation) (f : Formula) : List UInt8 :=
  f.bytes n ++ [lineFeed]

section Bytes

variable {n : Notation} {f : Formula}

theorem isBlank_eq_false {b : UInt8} (h : 0x20 < b.toNat) : isBlank b = false := by
  rw [isBlank, Bool.or_eq_false_iff, beq_eq_false_iff_ne, beq_eq_false_iff_ne]
  constructor
  · rintro rfl
    simp at h
  · rintro rfl
    simp at h

/-- The text of a plain formula has no blanks. -/
theorem Formula.withoutBlanks_bytes (hf : f.Plain) : withoutBlanks (f.bytes n) = f.bytes n := by
  apply List.filter_eq_self.2
  intro b hb
  simp [isBlank_eq_false (lt_of_mem_bytes hf hb)]

/-- The text of a plain formula has no line end. -/
theorem Formula.lineFeed_not_mem_bytes (hf : f.Plain) : lineFeed ∉ f.bytes n := by
  intro h
  exact absurd (lt_of_mem_bytes hf h) (by decide)

/-- Characters are symbols of a plain formula when their bytes are its text. -/
theorem Formula.map_ofUInt8_eq_symbols (hf : f.Plain) {bytes : List UInt8} :
    bytes.map Char.ofUInt8 = f.symbols n ↔ bytes = f.bytes n := by
  rw [← map_ofUInt8_bytes hf]
  exact List.map_inj_right fun a b => ofUInt8_injective

end Bytes

/-- The line feed that ends the first line can be found in one place only. -/
theorem Source.append_lineFeed_inj {w w' : List UInt8} {rest rest' : Source} (hw : lineFeed ∉ w)
    (hw' : lineFeed ∉ w')
    (h : append w (.byte lineFeed rest) = append w' (.byte lineFeed rest')) : w = w' ∧ rest = rest' := by
  -- The line feed behind one line cannot be a byte of the other.
  induction w generalizing w' with
  | nil =>
      cases w' with
      | nil => exact ⟨rfl, (Source.byte.inj h).2⟩
      | cons b w' => exact absurd ((Source.byte.inj h).1 ▸ List.mem_cons_self) hw'
  | cons b w ih =>
      cases w' with
      | nil => exact absurd ((Source.byte.inj h).1 ▸ List.mem_cons_self) hw
      | cons b' w' =>
          obtain ⟨rfl, hrest⟩ := Source.byte.inj h
          rw [List.mem_cons, not_or] at hw hw'
          obtain ⟨rfl, rfl⟩ := ih hw.2 hw'.2 hrest
          exact ⟨rfl, rfl⟩

namespace Notation

variable {n : Notation} {f : Formula}

/-- A formula that is read is plain. -/
theorem plain_of_readLine {source rest : Source} (h : n.readLine source = (.ok (some f), rest)) :
    f.Plain := by
  obtain ⟨σ, m, After, hread, hm⟩ := n.exists_recognizes
  rw [hread] at h
  obtain ⟨bytes, -, -, hf, -⟩ := hm.exists_line_of_readLine h
  exact hf

/-- A formula is never read for nothing. -/
theorem reads_lt_of_readLine {source rest : Source} (h : n.readLine source = (.ok (some f), rest)) :
    rest.reads < source.reads := by
  obtain ⟨σ, m, After, hread, -⟩ := n.exists_recognizes
  rw [hread] at h
  have hlt : (m.readLine source).2.reads < source.reads := by
    -- A source that has ended or fails for ever gives no formula.
    apply m.reads_readLine_lt
    · rintro rfl
      exact nomatch h
    · rintro fault rfl
      exact nomatch h
  rwa [h] at hlt

/-- **What is written on a line is read back**, and nothing behind the line is touched. -/
theorem readLine_line (hf : f.Plain) (rest : Source) :
    n.readLine (Source.append (f.line n) rest) = (.ok (some f), rest) := by
  obtain ⟨σ, m, After, hread, hm⟩ := n.exists_recognizes
  have hbytes : characters (f.bytes n) = f.symbols n := by
    rw [characters, Formula.withoutBlanks_bytes hf, Formula.map_ofUInt8_bytes hf]
  rw [hread, Formula.line, Source.append_append]
  exact hm.readLine_formula hf (Formula.lineFeed_not_mem_bytes hf) hbytes rest

/-- A line gives a plain formula when it is its text, but for blanks. -/
theorem readLine_of_withoutBlanks (hf : f.Plain) {w : List UInt8} (hw : lineFeed ∉ w)
    (h : withoutBlanks w = f.bytes n) (rest : Source) :
    n.readLine (Source.append w (.byte lineFeed rest)) = (.ok (some f), rest) := by
  obtain ⟨σ, m, After, hread, hm⟩ := n.exists_recognizes
  rw [hread]
  exact hm.readLine_formula hf hw ((Formula.map_ofUInt8_eq_symbols hf).2 h) rest

/-- A line that gives a formula is its text, but for blanks. -/
theorem withoutBlanks_of_readLine {w : List UInt8} (hw : lineFeed ∉ w) {rest rest' : Source}
    (h : n.readLine (Source.append w (.byte lineFeed rest)) = (.ok (some f), rest')) :
    f.Plain ∧ withoutBlanks w = f.bytes n := by
  obtain ⟨σ, m, After, hread, hm⟩ := n.exists_recognizes
  rw [hread] at h
  obtain ⟨bytes, hn, hsource, hf, hbytes⟩ := hm.exists_line_of_readLine h
  obtain ⟨rfl, -⟩ := Source.append_lineFeed_inj hw hn hsource
  exact ⟨hf, (Formula.map_ofUInt8_eq_symbols hf).1 hbytes⟩

/-- The texts of plain formulas tell them apart. -/
theorem bytes_injective {g : Formula} (hf : f.Plain) (hg : g.Plain) (h : f.bytes n = g.bytes n) :
    f = g := by
  obtain ⟨σ, m, After, -, hm⟩ := n.exists_recognizes
  apply hm.symbols_injective hf hg
  rw [← Formula.map_ofUInt8_bytes hf, ← Formula.map_ofUInt8_bytes hg, h]

/-- **A line gives exactly the formula that is written there.** It gives `f` if and only if `f` is plain and
its text is the line without blanks; in particular a written formula is read back with the rest of the input
untouched, and the texts of plain formulas are unambiguous. -/
theorem readLine_eq_formula_iff (n : Notation) (f : Formula) (w rest : List UInt8)
    (hw : lineFeed ∉ w) :
    ((n.readLine (Source.ofBytes (w ++ lineFeed :: rest))).1 = .ok (some f) ↔
        f.Plain ∧ withoutBlanks w = f.bytes n) ∧
      (f.Plain → n.readLine (Source.ofBytes (f.bytes n ++ lineFeed :: rest)) =
        (.ok (some f), Source.ofBytes rest)) ∧
      (f.Plain → ∀ g : Formula, g.Plain → f.bytes n = g.bytes n → f = g) := by
  refine ⟨⟨?_, ?_⟩, ?_, ?_⟩
  · intro h
    rw [Source.ofBytes_append] at h
    exact withoutBlanks_of_readLine hw (Prod.ext h rfl)
  · rintro ⟨hf, h⟩
    rw [Source.ofBytes_append]
    exact congrArg Prod.fst (readLine_of_withoutBlanks hf hw h (Source.ofBytes rest))
  · intro hf
    rw [Source.ofBytes_append]
    exact readLine_of_withoutBlanks hf (Formula.lineFeed_not_mem_bytes hf)
      (Formula.withoutBlanks_bytes hf) (Source.ofBytes rest)
  · intro hf g hg h
    exact bytes_injective hf hg h

/-- The line `- (A>B)`, with a tab behind it, gives the negation of an implication. -/
theorem readLine_negated_implication :
    lineFeed ∉ [0x2D, 0x20, 0x28, 0x41, 0x3E, 0x42, 0x29, 0x09] ∧
      (Notation.bracketed.readLine (Source.ofBytes
          ([0x2D, 0x20, 0x28, 0x41, 0x3E, 0x42, 0x29, 0x09] ++ lineFeed :: [0x41]))).1 =
        .ok (some (.negation (.compound .implication (.letter 'A') (.letter 'B')))) := by
  have hw : lineFeed ∉ [0x2D, 0x20, 0x28, 0x41, 0x3E, 0x42, 0x29, 0x09] := by decide
  have hf : (Formula.negation (.compound .implication (.letter 'A') (.letter 'B'))).Plain := by
    decide
  refine ⟨hw, (readLine_eq_formula_iff .bracketed _ _ [0x41] hw).1.2 ⟨hf, ?_⟩⟩
  rw [Formula.bytes_eq_map hf]
  decide

end Notation

end PropositionalCalculus
