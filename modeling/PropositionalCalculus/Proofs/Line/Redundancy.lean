import PropositionalCalculus.Proofs.Line.Taking

/-!
# Redundant and unexpected characters

A character that the notation uses is refused as redundant or as unexpected. Between bracketed operands it should be
redundant when the formula of the line is complete before it, unless it is a letter, and unexpected otherwise. The
reader decides this from the levels that are open: without any, the formula is complete or nothing has been read yet
(`Bracketed.finish_eq_some_iff`). Of the characters that cannot begin a formula a connective is asked which of the two
it is, and a closing bracket is not. So the law holds with one exception, a closing bracket at the beginning of the
line, which is redundant although nothing is complete (`Notation.bracketed_redundant_iff`).
-/

set_option autoImplicit false

namespace PropositionalCalculus

open Line

/-- The bytes are the text of a plain formula. -/
def Notation.Complete (n : Notation) (bytes : List UInt8) : Prop :=
  ∃ f : Formula, f.Plain ∧ bytes = f.bytes n

theorem Notation.complete_iff {n : Notation} {bytes : List UInt8} :
    n.Complete bytes ↔ ∃ f : Formula, f.Plain ∧ bytes.map Char.ofUInt8 = f.symbols n := by
  constructor
  · rintro ⟨f, hf, hbytes⟩
    exact ⟨f, hf, (Formula.map_ofUInt8_eq_symbols hf).2 hbytes⟩
  · rintro ⟨f, hf, hsymbols⟩
    exact ⟨f, hf, (Formula.map_ofUInt8_eq_symbols hf).1 hsymbols⟩

namespace Line

/-! ## Which token a character is -/

namespace Token

/-- A character that is no letter is another token. -/
theorem forall_ne_letter_iff {c : Char} : (∀ d, ofChar c ≠ letter d) ↔ Formula.isPlainLetter c = false := by
  constructor
  · intro hnone
    rw [← Bool.not_eq_true]
    intro hc
    exact hnone c (ofChar_letter hc)
  · intro hc d hd
    rw [eq_char hd] at hc
    exact Bool.false_ne_true (hc.symm.trans (isPlainLetter_of_ofChar hd))

/-- One character closes a bracket. -/
theorem eq_closing_iff {c : Char} : ofChar c = closing ↔ c = ')' := by
  constructor
  · exact eq_char
  · rintro rfl
    exact ofChar_closing

end Token

/-! ## What an automaton has read when it refuses -/

namespace Automaton.Recognizes

variable {σ : Type} {m : Automaton σ} {n : Notation} {After : σ → List Char → Prop}
  (h : m.Recognizes n After)

include h

/-- A formula is complete when the line may end with one. -/
theorem exists_symbols_iff {s : σ} {cs : List Char} (hs : m.feed m.start cs = .ok s) :
    (∃ f : Formula, f.Plain ∧ cs = f.symbols n) ↔ ∃ f, m.finish s = some (some f) := by
  constructor
  · rintro ⟨f, hf, rfl⟩
    -- Its symbols lead to one state only.
    obtain ⟨s', hs', hfound⟩ := h.reads hf
    obtain rfl := Except.ok.inj (hs.symm.trans hs')
    exact ⟨f, hfound⟩
  · rintro ⟨f, hfound⟩
    exact ⟨f, h.found (h.after hs) hfound⟩

/-- Nothing has been read when the line may end without a formula. -/
theorem eq_nil_iff {s : σ} {cs : List Char} (hs : m.feed m.start cs = .ok s) :
    cs = [] ↔ m.finish s = some none := by
  constructor
  · rintro rfl
    obtain rfl := Except.ok.inj hs
    exact h.blank
  · exact h.nothing (h.after hs)

/-- A line is refused at one of its characters, in the state to which those before it lead. -/
theorem exists_refused_character {w : List UInt8} (hw : lineFeed ∉ w) {tail : Source}
    (htail : tail = .ended ∨ ∃ rest, tail = .byte lineFeed rest) {why : Refusal} {c : Char} {position : Nat}
    (hrefused : (m.readLine (Source.append w tail)).1 = .error (.refused why c position)) :
    ∃ before after s, characters w = before ++ c :: after ∧ m.feed m.start before = .ok s ∧
      m.accept s (Token.ofChar c) = .error (.refused why) ∧ position = before.length + 1 := by
  rcases h.feed_cases (characters w) with ⟨s, hs⟩ | ⟨before, d, after, s, why', hchars, hbefore, hd⟩
  · -- A line that is accepted to its end is not refused.
    rw [Automaton.readLine, m.scan_append hw hs] at hrefused
    rcases htail with rfl | ⟨rest, rfl⟩
    · cases hcount : 0 + (characters w).length with
      | zero =>
          rw [hcount] at hrefused
          cases hrefused
      | succ count =>
          rw [hcount] at hrefused
          cases hrefused
    · cases hfinish : m.finish s with
      | none =>
          rw [m.scan_lineFeed_incomplete hfinish] at hrefused
          cases hrefused
      | some found =>
          rw [m.scan_lineFeed hfinish] at hrefused
          cases hrefused
  · rw [Automaton.readLine, m.scan_refused hw hchars hbefore hd, Nat.zero_add] at hrefused
    have hskipped : (skip (.refused why' d (before.length + 1)) tail).1 =
        .error (.refused why' d (before.length + 1)) := by
      rcases htail with rfl | ⟨rest, rfl⟩
      · rfl
      · rw [skip_lineFeed]
    obtain ⟨rfl, rfl, rfl⟩ := LineError.refused.inj (Except.error.inj (hskipped.symm.trans hrefused))
    exact ⟨before, after, s, hchars, hbefore, hd, rfl⟩

/-- **A byte is refused in the state to which the bytes before it lead**, blanks left out. -/
theorem exists_refusal {bytes : List UInt8} {why : Refusal} {c : Char} {position : Nat}
    (hrefused : (m.readLine (.ofBytes bytes)).1 = .error (.refused why c position)) :
    ∃ before b after s, significant bytes = before ++ b :: after ∧ c = Char.ofUInt8 b ∧
      position = before.length + 1 ∧ m.feed m.start (before.map Char.ofUInt8) = .ok s ∧
      m.accept s (Token.ofChar c) = .error (.refused why) := by
  obtain ⟨w, tail, hw, rfl, hline, htail⟩ := Notation.exists_first_line bytes
  have hends : Source.ofBytes tail = .ended ∨ ∃ rest, Source.ofBytes tail = .byte lineFeed rest := by
    rcases htail with rfl | ⟨rest, rfl⟩
    · exact Or.inl rfl
    · exact Or.inr ⟨_, rfl⟩
  rw [Source.ofBytes_append] at hrefused
  obtain ⟨before, after, s, hchars, hbefore, hc, rfl⟩ := h.exists_refused_character hw hends hrefused
  obtain ⟨xs, ys, hsplit, rfl, hys⟩ := List.map_eq_append_iff.1 hchars
  obtain ⟨b, zs, rfl, rfl, -⟩ := List.map_eq_cons_iff.1 hys
  refine ⟨xs, b, zs, s, ?_, rfl, ?_, hbefore, hc⟩
  · rw [significant, hline, hsplit]
  · rw [List.length_map]

end Automaton.Recognizes

/-! ## Between bracketed operands -/

namespace Bracketed

/-- The line may end without an open level: with a formula, or with nothing. -/
theorem finish_eq_some_iff (s : State) {found : Option Formula} :
    finish s = some found ↔ s.levels = [] ∧ s.operands.head? = found := by
  rw [finish]
  split
  · rename_i hlevels
    rw [Option.some.injEq, and_iff_right (List.isEmpty_iff.1 hlevels)]
  · rename_i hlevels
    rw [List.isEmpty_iff] at hlevels
    constructor
    · intro hfound
      cases hfound
    · rintro ⟨hnone, -⟩
      exact absurd hnone hlevels

/-- An operand is not refused by the levels that it passes through. -/
theorem settle_ne_refused (levels : List Level) (operands : List Formula) (f : Formula) (why : Refusal) :
    settle levels operands f ≠ .error (.refused why) := by
  induction levels generalizing f with
  | nil => exact nofun
  | cons level levels ih =>
      cases level with
      | negation operation =>
          rw [settle]
          split
          · exact ih _
          · exact nofun
      | _ => exact nofun

/-- Where a level is open, one more is opened or the character is unexpected. -/
theorem unexpected_of_openLevel {level : Level} {levels : List Level} {operands : List Formula} {l : Level}
    {why : Refusal} (h : openLevel ⟨level :: levels, operands⟩ l = .error (.refused why)) : why = .unexpected := by
  by_cases hawaits : level.awaitsOperand
  · exact nomatch (if_pos hawaits).symm.trans h
  · exact (Halt.refused.inj (Except.error.inj ((if_neg hawaits).symm.trans h))).symm

/-- What an open level refuses is unexpected. -/
theorem unexpected_of_level {level : Level} {levels : List Level} {operands : List Formula} {t : Token}
    {why : Refusal} (h : accept ⟨level :: levels, operands⟩ t = .error (.refused why))
    (hwhy : why ≠ .illegal) : why = .unexpected := by
  cases t with
  | foreign c =>
      obtain rfl := Halt.refused.inj (Except.error.inj h)
      exact absurd rfl hwhy
  | letter c =>
      by_cases hawaits : level.awaitsOperand
      · exact absurd ((if_pos hawaits).symm.trans h) (settle_ne_refused _ _ _ _)
      · exact (Halt.refused.inj (Except.error.inj ((if_neg hawaits).symm.trans h))).symm
  | negation => exact unexpected_of_openLevel h
  | opening => exact unexpected_of_openLevel h
  | connective op =>
      cases level with
      | first => exact nomatch h
      | _ => exact (Halt.refused.inj (Except.error.inj h)).symm
  | closing =>
      cases level with
      | last operation =>
          rcases hsaturate : operation.saturate operands with ⟨_ | f, others⟩
          · simp [accept, hsaturate] at h
          · simp only [accept, hsaturate] at h
            exact absurd h (settle_ne_refused _ _ _ _)
      | _ => exact (Halt.refused.inj (Except.error.inj h)).symm

/-- Behind a complete formula everything but a letter is redundant. -/
theorem redundant_iff_of_complete {f : Formula} {operands : List Formula} {t : Token} {why : Refusal}
    (h : accept ⟨[], f :: operands⟩ t = .error (.refused why)) (hwhy : why ≠ .illegal) :
    why = .redundant ↔ ∀ c, t ≠ .letter c := by
  cases t with
  | foreign c => exact absurd (Halt.refused.inj (Except.error.inj h)).symm hwhy
  | letter c =>
      obtain rfl := Halt.refused.inj (Except.error.inj h)
      exact iff_of_false nofun fun hletter => hletter c rfl
  | _ =>
      obtain rfl := Halt.refused.inj (Except.error.inj h)
      exact iff_of_true rfl fun c => nofun

/-- At the beginning of the line a closing bracket is redundant, and a connective is not. -/
theorem redundant_iff_of_fresh {t : Token} {why : Refusal}
    (h : accept ⟨[], []⟩ t = .error (.refused why)) (hwhy : why ≠ .illegal) :
    why = .redundant ↔ t = .closing := by
  cases t with
  | foreign c => exact absurd (Halt.refused.inj (Except.error.inj h)).symm hwhy
  | connective op =>
      obtain rfl := Halt.refused.inj (Except.error.inj h)
      exact iff_of_false nofun nofun
  | closing =>
      obtain rfl := Halt.refused.inj (Except.error.inj h)
      exact iff_of_true rfl rfl
  | _ => exact nomatch h

/-- **What a reader calls redundant**: what is no letter and comes behind a formula, and a closing bracket behind
nothing. -/
theorem redundant_iff_of_accept {s : State} {t : Token} {why : Refusal}
    (h : accept s t = .error (.refused why)) (hwhy : why ≠ .illegal) :
    why = .redundant ↔
      (∃ f, finish s = some (some f)) ∧ (∀ c, t ≠ .letter c) ∨ finish s = some none ∧ t = .closing := by
  rcases s with ⟨_ | ⟨level, levels⟩, _ | ⟨f, operands⟩⟩
  · simpa [finish_eq_some_iff] using redundant_iff_of_fresh h hwhy
  · simpa [finish_eq_some_iff] using redundant_iff_of_complete h hwhy
  -- A level is open, so the line may not end.
  · obtain rfl := unexpected_of_level h hwhy
    simp [finish_eq_some_iff]
  · obtain rfl := unexpected_of_level h hwhy
    simp [finish_eq_some_iff]

end Bracketed

end Line

/-! ## What is redundant on a line -/

namespace Notation

variable {n : Notation}

/-- No formula is written with no byte. -/
theorem not_complete_nil (n : Notation) : ¬ n.Complete [] := by
  obtain ⟨σ, m, After, -, hm⟩ := n.exists_recognizes
  rw [complete_iff, List.map_nil, hm.exists_symbols_iff (m.feed_nil m.start), hm.blank]
  rintro ⟨f, hf⟩
  exact nomatch hf

/-- Where a character is refused no read has failed. -/
theorem readLine_bytes_of_refused {source : Source} {why : Refusal} {c : Char} {position : Nat}
    (h : (n.readLine source).1 = .error (.refused why c position)) :
    (n.readLine (.ofBytes source.bytes)).1 = .error (.refused why c position) := by
  rw [n.readLine_eq] at h
  cases hfault : source.interruption? with
  | none => rwa [hfault] at h
  | some kind =>
      rw [hfault] at h
      exact nomatch h

/-- **Redundant and unexpected characters between bracketed operands.** A character that the notation uses is refused
at its place among the characters of the line that are not blanks. It is redundant if and only if those before it are
the text of a formula and it is no letter, or else it is a closing bracket at the beginning of the line. In every
other case it is unexpected. -/
theorem bracketed_redundant_iff {source : Source} {why : Refusal} {c : Char} {position : Nat}
    (h : (Notation.bracketed.readLine source).1 = .error (.refused why c position)) (hwhy : why ≠ .illegal) :
    ∃ before b after, significant source.bytes = before ++ b :: after ∧ c = Char.ofUInt8 b ∧
      position = before.length + 1 ∧
      (why = .redundant ↔
        Notation.bracketed.Complete before ∧ Formula.isPlainLetter c = false ∨ before = [] ∧ c = ')') ∧
      (why = .unexpected ↔
        ¬ (Notation.bracketed.Complete before ∧ Formula.isPlainLetter c = false ∨ before = [] ∧ c = ')')) := by
  have hm := Bracketed.recognizes
  obtain ⟨before, b, after, s, hsplit, hc, hposition, hbefore, haccept⟩ :=
    hm.exists_refusal (readLine_bytes_of_refused h)
  have hredundant : why = .redundant ↔
      Notation.bracketed.Complete before ∧ Formula.isPlainLetter c = false ∨ before = [] ∧ c = ')' := by
    rw [Bracketed.redundant_iff_of_accept haccept hwhy, complete_iff, hm.exists_symbols_iff hbefore,
      ← Token.forall_ne_letter_iff, ← Token.eq_closing_iff, ← List.map_eq_nil_iff (f := Char.ofUInt8),
      hm.eq_nil_iff hbefore]
    rfl
  refine ⟨before, b, after, hsplit, hc, hposition, hredundant, ?_⟩
  rw [← hredundant]
  cases why <;> simp at hwhy ⊢

/-- The second closing bracket of `(A>B))` is redundant, for `(A>B)` is complete. -/
theorem bracketed_redundant_closing :
    (Notation.bracketed.readLine (.ofBytes [0x28, 0x41, 0x3E, 0x42, 0x29, 0x29, lineFeed])).1 =
        .error (.refused .redundant ')' 6) ∧
      Refusal.redundant ≠ .illegal ∧ Notation.bracketed.Complete [0x28, 0x41, 0x3E, 0x42, 0x29] := by
  have hrefused : (Notation.bracketed.readLine
      (.ofBytes [0x28, 0x41, 0x3E, 0x42, 0x29, 0x29, lineFeed])).1 = .error (.refused .redundant ')' 6) :=
    rfl
  obtain ⟨before, b, after, hsplit, -, hposition, hredundant, -⟩ := bracketed_redundant_iff hrefused (by decide)
  have hlength : before.length = 5 := (Nat.succ.inj hposition).symm
  have hbefore : before = [0x28, 0x41, 0x3E, 0x42, 0x29] := by
    have htake : (before ++ b :: after).take 5 = before := List.take_left' hlength
    rw [← htake, ← hsplit]
    decide +kernel
  refine ⟨hrefused, by decide, ?_⟩
  rcases hredundant.1 rfl with ⟨hcomplete, -⟩ | ⟨rfl, -⟩
  · rwa [hbefore] at hcomplete
  · exact nomatch hlength

/-- **A closing bracket at the beginning of the line is redundant**, although nothing that is complete stands before
it. -/
theorem bracketed_redundant_at_start :
    (Notation.bracketed.readLine (.ofBytes [0x29, lineFeed])).1 = .error (.refused .redundant ')' 1) ∧
      ¬ Notation.bracketed.Complete ((significant [0x29, lineFeed]).take 0) := by
  refine ⟨rfl, ?_⟩
  rw [List.take_zero]
  exact not_complete_nil .bracketed

end Notation

end PropositionalCalculus
