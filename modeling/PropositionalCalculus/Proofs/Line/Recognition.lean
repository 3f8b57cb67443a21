import PropositionalCalculus.Proofs.Formula.Bytes
import PropositionalCalculus.Proofs.Line.Scan

/-!
# Automata that recognize a notation

`Automaton.Recognizes` collects what makes an automaton a reader of a notation: the characters behind it are
always the beginning of some plain formula, a formula's symbols lead to that formula, and a character is
refused only where it is refused for good. An invariant between states and the characters read so far carries
it, one for each automaton.

From it follows what a line gives, whatever the automaton: the formula whose symbols the line holds
(`readLine_formula`, `exists_line_of_readLine`), nothing, or an error at the first character with which the
line stops being the beginning of a formula (`readLine_refused`).
-/

set_option autoImplicit false

namespace PropositionalCalculus

open Line

/-- The symbols of some plain formula begin with these characters. -/
def Notation.Opens (n : Notation) (cs : List Char) : Prop :=
  ∃ f : Formula, f.Plain ∧ cs <+: f.symbols n

theorem Notation.Opens.shorten {n : Notation} {cs ds : List Char} (h : n.Opens ds) (hcs : cs <+: ds) :
    n.Opens cs := by
  obtain ⟨f, hf, hds⟩ := h
  exact ⟨f, hf, hcs.trans hds⟩

/-- The letter that stands in for an operand still to come. -/
theorem Formula.plain_letter_A : (Formula.letter 'A').Plain := by
  decide

/-- Every formula begins with no character at all. -/
theorem Notation.opens_nil (n : Notation) : n.Opens [] :=
  ⟨.letter 'A', Formula.plain_letter_A, List.nil_prefix⟩

theorem Notation.opens_symbols (n : Notation) {f : Formula} (hf : f.Plain) : n.Opens (f.symbols n) :=
  ⟨f, hf, List.prefix_rfl⟩

namespace Line.Automaton

variable {σ : Type}

/-- The automaton reads the lines of the notation. `After s cs` says that the characters `cs` lead to the
state `s`. -/
structure Recognizes (m : Automaton σ) (n : Notation) (After : σ → List Char → Prop) : Prop where
  start : After m.start []
  step {s s' : σ} {cs : List Char} {c : Char} :
    After s cs → m.accept s (Token.ofChar c) = .ok s' → After s' (cs ++ [c])
  /-- A blank line is no formula. -/
  blank : m.finish m.start = some none
  /-- A formula is read from its symbols. -/
  reads {f : Formula} :
    f.Plain → ∃ s, m.feed m.start (f.symbols n) = .ok s ∧ m.finish s = some (some f)
  /-- What has been read can be completed. -/
  opens {s : σ} {cs : List Char} : After s cs → n.Opens cs
  /-- A line ends without a formula only if it is blank. -/
  nothing {s : σ} {cs : List Char} : After s cs → m.finish s = some none → cs = []
  /-- A formula is read from nothing but its symbols. -/
  found {s : σ} {cs : List Char} {f : Formula} :
    After s cs → m.finish s = some (some f) → f.Plain ∧ cs = f.symbols n
  /-- An automaton halts at a character by refusing it, and only characters that are not used are illegal. -/
  refuses {s : σ} {cs : List Char} {c : Char} {halt : Halt} :
    After s cs → m.accept s (Token.ofChar c) = .error halt →
      ∃ why, halt = .refused why ∧ (why = .illegal ↔ ¬ n.Uses c)

namespace Recognizes

variable {m : Automaton σ} {n : Notation} {After : σ → List Char → Prop} (h : m.Recognizes n After)
include h

theorem after {s : σ} {cs : List Char} (hs : m.feed m.start cs = .ok s) : After s cs :=
  m.feed_preserves h.step h.start hs

/-- **An automaton goes on exactly as long as the characters begin a formula.** -/
theorem exists_feed_iff (cs : List Char) : (∃ s, m.feed m.start cs = .ok s) ↔ n.Opens cs := by
  constructor
  · rintro ⟨s, hs⟩
    exact h.opens (h.after hs)
  · rintro ⟨f, hf, ds, hds⟩
    obtain ⟨s, hs, -⟩ := h.reads hf
    cases hcs : m.feed m.start cs with
    | ok s' => exact ⟨s', rfl⟩
    | error halt =>
        -- The symbols of the formula would meet the same refusal.
        obtain ⟨before, c, after, s', rfl, hbefore, hc⟩ := m.exists_of_feed_eq_error hcs
        rw [← hds, List.append_assoc, m.feed_append_of_ok hbefore, List.cons_append,
          m.feed_cons_of_error hc] at hs
        simp at hs

/-- Two plain formulas with the same symbols are the same. -/
theorem symbols_injective {f g : Formula} (hf : f.Plain) (hg : g.Plain)
    (hfg : f.symbols n = g.symbols n) : f = g := by
  obtain ⟨s, hs, hfound⟩ := h.reads hf
  obtain ⟨s', hs', hfound'⟩ := h.reads hg
  rw [hfg, hs'] at hs
  obtain rfl : s' = s := Except.ok.inj hs
  rw [hfound'] at hfound
  exact (Option.some.inj (Option.some.inj hfound)).symm

/-! ## What a line gives -/

/-- A line with the symbols of a plain formula gives the formula. -/
theorem readLine_formula {f : Formula} (hf : f.Plain) {bytes : List UInt8} (hn : lineFeed ∉ bytes)
    (hbytes : characters bytes = f.symbols n) (rest : Source) :
    m.readLine (Source.append bytes (.byte lineFeed rest)) = (.ok (some f), rest) := by
  obtain ⟨s, hs, hfound⟩ := h.reads hf
  rw [← hbytes] at hs
  rw [readLine, m.scan_append hn hs, m.scan_lineFeed hfound]

/-- A line that gives a formula holds its symbols, and the formula is plain. -/
theorem exists_line_of_readLine {source rest : Source} {f : Formula}
    (hline : m.readLine source = (.ok (some f), rest)) :
    ∃ bytes, lineFeed ∉ bytes ∧ source = Source.append bytes (.byte lineFeed rest) ∧ f.Plain ∧
      characters bytes = f.symbols n := by
  obtain ⟨bytes, s, hn, hsource, hs, hfound⟩ := m.scan_eq_some hline
  obtain ⟨hf, hbytes⟩ := h.found (h.after hs) hfound
  exact ⟨bytes, hn, hsource, hf, hbytes⟩

theorem readLine_blank {bytes : List UInt8} (hn : lineFeed ∉ bytes) (hbytes : characters bytes = [])
    (rest : Source) : m.readLine (Source.append bytes (.byte lineFeed rest)) = (.ok none, rest) := by
  have hs : m.feed m.start (characters bytes) = .ok m.start := by rw [hbytes, feed_nil]
  rw [readLine, m.scan_append hn hs, m.scan_lineFeed h.blank]

/-- A line that ends in the middle of a formula is incomplete. -/
theorem readLine_incomplete {bytes : List UInt8} (hn : lineFeed ∉ bytes)
    (hopens : n.Opens (characters bytes)) (hne : characters bytes ≠ [])
    (hpart : ∀ f : Formula, f.Plain → characters bytes ≠ f.symbols n) (rest : Source) :
    m.readLine (Source.append bytes (.byte lineFeed rest)) = (.error .incomplete, rest) := by
  obtain ⟨s, hs⟩ := (h.exists_feed_iff _).2 hopens
  rw [readLine, m.scan_append hn hs]
  cases hfinish : m.finish s with
  | none => exact m.scan_lineFeed_incomplete hfinish rest _
  | some found =>
      cases found with
      | none => exact absurd (h.nothing (h.after hs) hfinish) hne
      | some f =>
          obtain ⟨hf, hbytes⟩ := h.found (h.after hs) hfinish
          exact absurd hbytes (hpart f hf)

/-- Without its line end even a complete formula is not accepted. -/
theorem readLine_unterminated {bytes : List UInt8} (hn : lineFeed ∉ bytes)
    (hopens : n.Opens (characters bytes)) (hne : characters bytes ≠ []) :
    m.readLine (Source.append bytes .ended) = (.error .unexpectedEnd, .ended) := by
  obtain ⟨s, hs⟩ := (h.exists_feed_iff _).2 hopens
  obtain ⟨c, cs, hcs⟩ := List.exists_cons_of_ne_nil hne
  rw [readLine, m.scan_append hn hs, hcs, List.length_cons, ← Nat.add_assoc]
  rfl

/-- **A line is refused at the first character with which it stops being the beginning of a formula.** -/
theorem readLine_refused {bytes : List UInt8} (hn : lineFeed ∉ bytes)
    (hopens : ¬ n.Opens (characters bytes)) :
    ∃ before c after why, characters bytes = before ++ c :: after ∧ n.Opens before ∧
      ¬ n.Opens (before ++ [c]) ∧ (why = .illegal ↔ ¬ n.Uses c) ∧
      ∀ rest, m.readLine (Source.append bytes rest) =
        skip (.refused why c (before.length + 1)) rest := by
  cases hfeed : m.feed m.start (characters bytes) with
  | ok s => exact absurd ((h.exists_feed_iff _).1 ⟨s, hfeed⟩) hopens
  | error halt =>
      obtain ⟨before, c, after, s, hbytes, hbefore, hc⟩ := m.exists_of_feed_eq_error hfeed
      obtain ⟨why, rfl, hwhy⟩ := h.refuses (h.after hbefore) hc
      refine ⟨before, c, after, why, hbytes, (h.exists_feed_iff _).1 ⟨s, hbefore⟩, ?_, hwhy, ?_⟩
      · intro hnext
        obtain ⟨s', hs'⟩ := (h.exists_feed_iff _).2 hnext
        rw [m.feed_append_of_ok hbefore, m.feed_cons_of_error hc] at hs'
        simp at hs'
      · intro rest
        rw [readLine, m.scan_refused hn hbytes hbefore hc, Nat.zero_add]

end Recognizes

end Line.Automaton

end PropositionalCalculus
