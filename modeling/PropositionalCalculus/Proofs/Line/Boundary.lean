import PropositionalCalculus.Proofs.Line.Rejection

/-!
# Where reading a line ends

On a source that does not fail, an attempt to read a line takes the bytes up to the next line feed and the line
feed itself, or all that are left when there is none, whatever the line holds. What it gives depends on these
bytes alone (`exists_takesFirstLine`). The bound is the same for all errors: a refused character makes the reader
skip to the line feed, and a line is incomplete only where it ends.

So the attempts on a whole input give what each of its lines gives on its own (`outcomes_eq`), and a malformed
line does not disturb a later one.
-/

set_option autoImplicit false

namespace PropositionalCalculus

open Line

namespace Line

/-! ## The lines of an input -/

/-- The bytes of the first line, with its line feed if it has one. -/
def firstLine (bytes : List UInt8) : List UInt8 :=
  bytes.takeWhile (· ≠ lineFeed) ++ (bytes.dropWhile (· ≠ lineFeed)).take 1

/-- The bytes behind the first line. -/
def otherLines (bytes : List UInt8) : List UInt8 :=
  (bytes.dropWhile (· ≠ lineFeed)).drop 1

/-- The bytes of the line with the given number, counted from zero; none when there are fewer lines. -/
def lineAt : Nat → List UInt8 → List UInt8
  | 0, bytes => firstLine bytes
  | k + 1, bytes => lineAt k (otherLines bytes)

theorem firstLine_append_otherLines (bytes : List UInt8) :
    firstLine bytes ++ otherLines bytes = bytes := by
  rw [firstLine, otherLines, List.append_assoc, List.take_append_drop, List.takeWhile_append_dropWhile]

theorem firstLine_nil : firstLine [] = [] :=
  rfl

theorem otherLines_nil : otherLines [] = [] :=
  rfl

/-- The first line goes on with a byte that is not a line feed. -/
theorem firstLine_cons {b : UInt8} (hb : b ≠ lineFeed) (bytes : List UInt8) :
    firstLine (b :: bytes) = b :: firstLine bytes := by
  rw [firstLine, List.takeWhile_cons_of_pos (by simpa using hb), List.dropWhile_cons_of_pos (by simpa using hb)]
  rfl

theorem firstLine_lineFeed (bytes : List UInt8) : firstLine (lineFeed :: bytes) = [lineFeed] := by
  rw [firstLine, List.takeWhile_cons_of_neg (by simp), List.dropWhile_cons_of_neg (by simp)]
  rfl

theorem otherLines_lineFeed (bytes : List UInt8) : otherLines (lineFeed :: bytes) = bytes := by
  rw [otherLines, List.dropWhile_cons_of_neg (by simp)]
  rfl

/-- Where there are bytes the first line has some. -/
theorem length_firstLine_pos (b : UInt8) (bytes : List UInt8) : 0 < (firstLine (b :: bytes)).length := by
  by_cases hb : b = lineFeed
  · subst hb
    rw [firstLine_lineFeed]
    exact Nat.one_pos
  · rw [firstLine_cons hb]
    exact Nat.succ_pos _

theorem otherLines_cons {b : UInt8} (hb : b ≠ lineFeed) (bytes : List UInt8) :
    otherLines (b :: bytes) = otherLines bytes := by
  rw [otherLines, List.dropWhile_cons_of_pos (by simpa using hb)]
  rfl

section Bytes

variable {w : List UInt8} (hw : lineFeed ∉ w)

include hw

theorem forall_ne_lineFeed : ∀ b ∈ w, decide (b ≠ lineFeed) = true := by
  intro b hb
  rw [decide_eq_true_eq]
  rintro rfl
  exact hw hb

theorem firstLine_terminated (rest : List UInt8) : firstLine (w ++ lineFeed :: rest) = w ++ [lineFeed] := by
  rw [firstLine, List.takeWhile_append_of_pos (forall_ne_lineFeed hw),
    List.dropWhile_append_of_pos (forall_ne_lineFeed hw), List.takeWhile_cons_of_neg (by simp),
    List.dropWhile_cons_of_neg (by simp), List.append_nil]
  rfl

theorem otherLines_terminated (rest : List UInt8) : otherLines (w ++ lineFeed :: rest) = rest := by
  rw [otherLines, List.dropWhile_append_of_pos (forall_ne_lineFeed hw),
    List.dropWhile_cons_of_neg (by simp)]
  rfl

theorem otherLines_unterminated : otherLines w = [] := by
  have hdrop : (w ++ []).dropWhile (· ≠ lineFeed) = [].dropWhile (· ≠ lineFeed) :=
    List.dropWhile_append_of_pos (forall_ne_lineFeed hw)
  rw [List.append_nil] at hdrop
  rw [otherLines, hdrop]
  rfl

theorem firstLine_unterminated : firstLine w = w := by
  have h := firstLine_append_otherLines w
  rwa [otherLines_unterminated hw, List.append_nil] at h

end Bytes

/-! ## One attempt -/

/-- The outcome is not that of a failed read. -/
def Outcome.Readable (outcome : Outcome) : Prop :=
  ∀ fault, outcome ≠ .error (.unreadable fault)

namespace Automaton.Recognizes

variable {σ : Type} {m : Automaton σ} {n : Notation} {After : σ → List Char → Prop}
  (h : m.Recognizes n After)

include h

/-- The characters are all accepted, or one of them is refused. -/
theorem feed_cases (cs : List Char) :
    (∃ s, m.feed m.start cs = .ok s) ∨
      ∃ before c after s why, cs = before ++ c :: after ∧ m.feed m.start before = .ok s ∧
        m.accept s (Token.ofChar c) = .error (.refused why) := by
  cases hfeed : m.feed m.start cs with
  | ok s => exact Or.inl ⟨s, rfl⟩
  | error halt =>
      obtain ⟨before, c, after, s, hcs, hbefore, hc⟩ := m.exists_of_feed_eq_error hfeed
      -- An automaton that recognizes a notation halts only by refusing.
      obtain ⟨why, rfl, -⟩ := h.refuses (h.after hbefore) hc
      exact Or.inr ⟨before, c, after, s, why, hcs, hbefore, hc⟩

/-- **A line with a line feed is read up to it**, whatever comes behind. -/
theorem exists_readLine_terminated {bytes : List UInt8} (hn : lineFeed ∉ bytes) :
    ∃ outcome : Outcome, outcome.Readable ∧
      ∀ rest, m.readLine (Source.append bytes (.byte lineFeed rest)) = (outcome, rest) := by
  rcases h.feed_cases (characters bytes) with ⟨s, hs⟩ | ⟨before, c, after, s, why, hbytes, hbefore, hc⟩
  · cases hfinish : m.finish s with
    | none =>
        refine ⟨.error .incomplete, by simp [Outcome.Readable], ?_⟩
        intro rest
        rw [readLine, m.scan_append hn hs, m.scan_lineFeed_incomplete hfinish]
    | some found =>
        refine ⟨.ok found, by simp [Outcome.Readable], ?_⟩
        intro rest
        rw [readLine, m.scan_append hn hs, m.scan_lineFeed hfinish]
  · refine ⟨.error (.refused why c (before.length + 1)), by simp [Outcome.Readable], ?_⟩
    intro rest
    rw [readLine, m.scan_refused hn hbytes hbefore hc, skip_lineFeed, Nat.zero_add]

/-- A line without a line feed is read to the end of the input. -/
theorem exists_readLine_ended {bytes : List UInt8} (hn : lineFeed ∉ bytes) :
    ∃ outcome : Outcome, outcome.Readable ∧
      m.readLine (Source.append bytes .ended) = (outcome, .ended) := by
  rcases h.feed_cases (characters bytes) with ⟨s, hs⟩ | ⟨before, c, after, s, why, hbytes, hbefore, hc⟩
  · rw [readLine, m.scan_append hn hs]
    cases 0 + (characters bytes).length with
    | zero => exact ⟨.ok none, by simp [Outcome.Readable], rfl⟩
    | succ count => exact ⟨.error .unexpectedEnd, by simp [Outcome.Readable], rfl⟩
  · refine ⟨.error (.refused why c (0 + before.length + 1)), by simp [Outcome.Readable], ?_⟩
    rw [readLine, m.scan_refused hn hbytes hbefore hc]
    rfl

end Automaton.Recognizes

end Line

namespace Notation

/-- An attempt on these bytes takes the first line and gives an outcome that depends on nothing else. -/
structure TakesFirstLine (n : Notation) (bytes : List UInt8) (outcome : Outcome) : Prop where
  readable : outcome.Readable
  /-- The other lines are left. -/
  takes : n.readLine (.ofBytes bytes) = (outcome, .ofBytes (otherLines bytes))
  /-- The line gives the same on its own. -/
  alone : n.readLine (.ofBytes (firstLine bytes)) = (outcome, .ended)
  /-- Behind a line feed there may be anything, even a source that fails. -/
  untouched : lineFeed ∈ bytes → ∀ rest, n.readLine (.append (firstLine bytes) rest) = (outcome, rest)

/-- **Whatever the first line holds, an attempt takes it and nothing else.** -/
theorem exists_takesFirstLine (n : Notation) (bytes : List UInt8) :
    ∃ outcome, n.TakesFirstLine bytes outcome := by
  obtain ⟨σ, m, After, hread, hm⟩ := n.exists_recognizes
  obtain ⟨w, tail, hw, rfl, -, rfl | ⟨rest, rfl⟩⟩ := exists_first_line bytes
  · obtain ⟨outcome, hreadable, hline⟩ := hm.exists_readLine_ended hw
    rw [← hread] at hline
    rw [List.append_nil]
    refine ⟨outcome, hreadable, ?_, ?_, ?_⟩
    · rw [otherLines_unterminated hw]
      exact hline
    · rw [firstLine_unterminated hw]
      exact hline
    · intro hmem
      exact absurd hmem hw
  · obtain ⟨outcome, hreadable, hline⟩ := hm.exists_readLine_terminated hw
    rw [← hread] at hline
    refine ⟨outcome, hreadable, ?_, ?_, ?_⟩
    · rw [otherLines_terminated hw, Source.ofBytes_append]
      exact hline _
    · rw [firstLine_terminated hw, Source.ofBytes_append]
      exact hline _
    · intro _ later
      rw [firstLine_terminated hw, Source.append_append]
      exact hline later

/-! ## One attempt after the other -/

/-- What the given number of attempts give, each where the one before has stopped. -/
def outcomes (n : Notation) : Nat → Source → List Outcome
  | 0, _ => []
  | count + 1, source => (n.readLine source).1 :: outcomes n count (n.readLine source).2

/-- What a line of the input gives on its own. -/
def outcomeAt (n : Notation) (bytes : List UInt8) (k : Nat) : Outcome :=
  (n.readLine (.ofBytes (lineAt k bytes))).1

/-- Attempts on an input give what its lines give on their own. -/
theorem outcomes_eq (n : Notation) (count : Nat) (bytes : List UInt8) :
    n.outcomes count (.ofBytes bytes) = (List.range count).map (n.outcomeAt bytes) := by
  induction count generalizing bytes with
  | zero => rfl
  | succ count ih =>
      obtain ⟨outcome, h⟩ := n.exists_takesFirstLine bytes
      have hfirst : n.outcomeAt bytes 0 = outcome := congrArg Prod.fst h.alone
      -- The lines behind the first one are those of the bytes that are left.
      have hothers : n.outcomeAt bytes ∘ Nat.succ = n.outcomeAt (otherLines bytes) := rfl
      rw [outcomes, h.takes, ih, List.range_succ_eq_map, List.map_cons, List.map_map, hfirst, hothers]

-- Two malformed lines, and a formula behind them.
example :
    (Notation.polish.outcomes 3 (.ofBytes ">A\n&A\n-A\n".toUTF8.data.toList)).map Except.toOption =
      [none, none, some (some (.negation (.letter 'A')))] := by
  decide +kernel

/-- **Every attempt reads exactly one line.** With any bytes ahead it takes the first line of them, and what it
gives does not depend on the others; so successive attempts give what each line gives on its own. -/
theorem readLine_exactly_one_line (n : Notation) (bytes : List UInt8) :
    (∃ outcome, n.TakesFirstLine bytes outcome) ∧
      ∀ count, n.outcomes count (.ofBytes bytes) = (List.range count).map (n.outcomeAt bytes) := by
  constructor
  · exact n.exists_takesFirstLine bytes
  · intro count
    exact n.outcomes_eq count bytes

end Notation

end PropositionalCalculus
