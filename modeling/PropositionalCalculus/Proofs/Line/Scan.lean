import PropositionalCalculus.Line.Automaton
import PropositionalCalculus.Proofs.Source

/-!
# An automaton on the characters of a line

`Automaton.feed` is what an automaton does with the characters of a line, apart from any source.
`Automaton.scan` does the same on the bytes of a source: it reaches the state that `feed` gives
(`scan_append`), or stops at the character at which `feed` stops and skips the rest of the line
(`scan_refused`). Whatever else the source holds, a line that gives a formula is made of bytes without a line
feed and a line feed behind them (`scan_eq_some`).
-/

set_option autoImplicit false

namespace PropositionalCalculus.Line

/-! ## The characters of a line -/

/-- The byte that ends a line. -/
def lineFeed : UInt8 := 0x0A

/-- Whether a byte is a space or a tab. -/
def isBlank (b : UInt8) : Bool :=
  b == 0x20 || b == 0x09

/-- The bytes that are not blanks. -/
def withoutBlanks (bytes : List UInt8) : List UInt8 :=
  bytes.filter (fun b => !isBlank b)

/-- The characters that the bytes stand for, without the blanks. -/
def characters (bytes : List UInt8) : List Char :=
  (withoutBlanks bytes).map Char.ofUInt8

theorem characters_cons_blank {b : UInt8} (hb : isBlank b = true) (bytes : List UInt8) :
    characters (b :: bytes) = characters bytes := by
  rw [characters, withoutBlanks, List.filter_cons_of_neg (by simp [hb])]
  rfl

theorem characters_cons_token {b : UInt8} (hb : isBlank b = false) (bytes : List UInt8) :
    characters (b :: bytes) = Char.ofUInt8 b :: characters bytes := by
  rw [characters, withoutBlanks, List.filter_cons_of_pos (by simp [hb])]
  rfl

theorem ofByte_blank {b : UInt8} (hb : isBlank b = true) : Mark.ofByte b = .blank := by
  rw [Mark.ofByte, if_pos (by simpa [isBlank] using hb)]

theorem ofByte_lineFeed : Mark.ofByte lineFeed = .lineEnd := by
  decide

theorem ofByte_token {b : UInt8} (hb : isBlank b = false) (hn : b ≠ lineFeed) :
    Mark.ofByte b = .token (Token.ofChar (Char.ofUInt8 b)) := by
  rw [Mark.ofByte, if_neg (by simpa [isBlank] using hb)]
  exact if_neg hn

/-- The rest of a line is skipped without regard to what it holds. -/
theorem skip_append (error : LineError) {bytes : List UInt8} (hn : lineFeed ∉ bytes) (rest : Source) :
    skip error (Source.append bytes rest) = skip error rest := by
  induction bytes with
  | nil => rfl
  | cons b bytes ih =>
      rw [List.mem_cons, not_or] at hn
      rw [Source.append_cons, skip]
      cases hb : isBlank b with
      | true => rw [ofByte_blank hb]; exact ih hn.2
      | false => rw [ofByte_token hb (Ne.symm hn.1)]; exact ih hn.2

theorem skip_lineFeed (error : LineError) (rest : Source) :
    skip error (.byte lineFeed rest) = (.error error, rest) := by
  rw [skip, ofByte_lineFeed]

/-- Skipping the rest of a line gives no formula and no success. -/
theorem skip_ne_ok (error : LineError) (source : Source) (found : Option Formula) :
    (skip error source).1 ≠ .ok found := by
  induction source with
  | ended => exact nofun
  | failing fault => exact nofun
  | fault kind again rest ih => exact nofun
  | byte b rest ih =>
      rw [skip]
      split
      · exact nofun
      · exact ih

namespace Automaton

variable {σ : Type} (m : Automaton σ)

/-! ## Feeding characters -/

/-- The state after the characters, or why the automaton halts at one of them. -/
def feed (s : σ) (cs : List Char) : Except Halt σ :=
  cs.foldlM (fun s c => m.accept s (Token.ofChar c)) s

@[simp] theorem feed_nil (s : σ) : m.feed s [] = .ok s := rfl

theorem feed_cons_of_ok {s s' : σ} {c : Char} (h : m.accept s (Token.ofChar c) = .ok s')
    (cs : List Char) : m.feed s (c :: cs) = m.feed s' cs := by
  rw [feed, List.foldlM_cons, h]
  rfl

theorem feed_cons_of_error {s : σ} {c : Char} {halt : Halt}
    (h : m.accept s (Token.ofChar c) = .error halt) (cs : List Char) :
    m.feed s (c :: cs) = .error halt := by
  rw [feed, List.foldlM_cons, h]
  rfl

theorem feed_append_of_ok {s s' : σ} {cs : List Char} (h : m.feed s cs = .ok s') (ds : List Char) :
    m.feed s (cs ++ ds) = m.feed s' ds := by
  rw [feed] at h
  rw [feed, List.foldlM_append, h]
  rfl

/-- What an automaton accepts, it accepts character by character. -/
theorem feed_cons_eq_ok {s s'' : σ} {c : Char} {cs : List Char} (h : m.feed s (c :: cs) = .ok s'') :
    ∃ s', m.accept s (Token.ofChar c) = .ok s' ∧ m.feed s' cs = .ok s'' := by
  cases hc : m.accept s (Token.ofChar c) with
  | ok s' => exact ⟨s', rfl, by rw [← m.feed_cons_of_ok hc, h]⟩
  | error halt =>
      rw [m.feed_cons_of_error hc] at h
      simp at h

/-- Characters that are not all accepted have a first one that is not. -/
theorem exists_of_feed_eq_error {s : σ} {cs : List Char} {halt : Halt} (h : m.feed s cs = .error halt) :
    ∃ before c after s', cs = before ++ c :: after ∧ m.feed s before = .ok s' ∧
      m.accept s' (Token.ofChar c) = .error halt := by
  induction cs generalizing s with
  | nil => simp at h
  | cons c cs ih =>
      cases hc : m.accept s (Token.ofChar c) with
      | ok s' =>
          rw [m.feed_cons_of_ok hc] at h
          obtain ⟨before, d, after, s'', rfl, hbefore, hd⟩ := ih h
          exact ⟨c :: before, d, after, s'', rfl, by rw [m.feed_cons_of_ok hc, hbefore], hd⟩
      | error halt' =>
          rw [m.feed_cons_of_error hc] at h
          obtain rfl : halt' = halt := Except.error.inj h
          exact ⟨[], c, cs, s, rfl, rfl, hc⟩

/-- A relation between states and characters read so far, kept by each character, holds after any. -/
theorem feed_preserves {After : σ → List Char → Prop}
    (step : ∀ {s s' cs c}, After s cs → m.accept s (Token.ofChar c) = .ok s' → After s' (cs ++ [c]))
    {s s' : σ} {cs ds : List Char} (hs : After s cs) (h : m.feed s ds = .ok s') :
    After s' (cs ++ ds) := by
  induction ds generalizing s cs with
  | nil =>
      obtain rfl : s = s' := Except.ok.inj h
      rwa [List.append_nil]
  | cons c ds ih =>
      obtain ⟨s₁, hc, hds⟩ := m.feed_cons_eq_ok h
      have := ih (step hs hc) hds
      rwa [List.append_assoc] at this

/-! ## Scanning bytes -/

theorem scan_blank {b : UInt8} (hb : isBlank b = true) (rest : Source) (s : σ) (count : Nat) :
    m.scan (.byte b rest) s count = m.scan rest s count := by
  rw [scan, ofByte_blank hb]

theorem scan_token {b : UInt8} (hb : isBlank b = false) (hn : b ≠ lineFeed) {s s' : σ}
    (h : m.accept s (Token.ofChar (Char.ofUInt8 b)) = .ok s') (rest : Source) (count : Nat) :
    m.scan (.byte b rest) s count = m.scan rest s' (count + 1) := by
  rw [scan, ofByte_token hb hn]
  simp only [h]

/-- **Scanning bytes without a line feed leads to the state that their characters lead to.** -/
theorem scan_append {bytes : List UInt8} (hn : lineFeed ∉ bytes) {s s' : σ}
    (h : m.feed s (characters bytes) = .ok s') (rest : Source) (count : Nat) :
    m.scan (Source.append bytes rest) s count =
      m.scan rest s' (count + (characters bytes).length) := by
  -- Blanks leave the state and the count alone, every other byte moves both.
  induction bytes generalizing s count with
  | nil =>
      obtain rfl : s = s' := Except.ok.inj h
      rfl
  | cons b bytes ih =>
      rw [List.mem_cons, not_or] at hn
      rw [Source.append_cons]
      cases hb : isBlank b with
      | true =>
          rw [characters_cons_blank hb] at h ⊢
          rw [m.scan_blank hb, ih hn.2 h]
      | false =>
          rw [characters_cons_token hb] at h ⊢
          obtain ⟨s₁, hc, hrest⟩ := m.feed_cons_eq_ok h
          rw [m.scan_token hb (Ne.symm hn.1) hc, ih hn.2 hrest, List.length_cons]
          congr 1
          omega

/-- **Scanning stops at the character at which feeding stops**, and the bytes behind it are skipped. -/
theorem scan_refused {bytes : List UInt8} (hn : lineFeed ∉ bytes) {s s' : σ} {before after : List Char}
    {c : Char} {why : Refusal} (hbytes : characters bytes = before ++ c :: after)
    (hbefore : m.feed s before = .ok s') (hc : m.accept s' (Token.ofChar c) = .error (.refused why))
    (rest : Source) (count : Nat) :
    m.scan (Source.append bytes rest) s count =
      skip (.refused why c (count + before.length + 1)) rest := by
  induction bytes generalizing s before count with
  | nil => simp [characters, withoutBlanks] at hbytes
  | cons b bytes ih =>
      rw [List.mem_cons, not_or] at hn
      rw [Source.append_cons]
      cases hb : isBlank b with
      | true =>
          rw [characters_cons_blank hb] at hbytes
          rw [m.scan_blank hb, ih hn.2 hbytes hbefore]
      | false =>
          rw [characters_cons_token hb] at hbytes
          cases before with
          | nil =>
              -- This is the byte that is refused; the rest of the line is skipped.
              obtain ⟨hbc, -⟩ := List.cons.inj hbytes
              obtain rfl : s = s' := Except.ok.inj hbefore
              rw [scan, ofByte_token hb (Ne.symm hn.1), hbc]
              simp only [hc, Token.char_ofChar]
              exact skip_append _ hn.2 rest
          | cons d before =>
              obtain ⟨hbd, hrest⟩ := List.cons.inj hbytes
              obtain ⟨s₁, hd, hbefore⟩ := m.feed_cons_eq_ok hbefore
              rw [← hbd] at hd
              rw [m.scan_token hb (Ne.symm hn.1) hd, ih hn.2 hrest hbefore, List.length_cons]
              congr 2
              omega

/-! ## The ends of a line -/

theorem scan_lineFeed {s : σ} {found : Option Formula} (h : m.finish s = some found) (rest : Source)
    (count : Nat) : m.scan (.byte lineFeed rest) s count = (.ok found, rest) := by
  rw [scan, ofByte_lineFeed]
  simp only [h]

theorem scan_lineFeed_incomplete {s : σ} (h : m.finish s = none) (rest : Source) (count : Nat) :
    m.scan (.byte lineFeed rest) s count = (.error .incomplete, rest) := by
  rw [scan, ofByte_lineFeed]
  simp only [h]

/-- The input may end behind blanks. -/
theorem readLine_blank_ended {bytes : List UInt8} (hn : lineFeed ∉ bytes)
    (hbytes : characters bytes = []) :
    m.readLine (Source.append bytes .ended) = (.ok none, .ended) := by
  have hs : m.feed m.start (characters bytes) = .ok m.start := by rw [hbytes, feed_nil]
  rw [readLine, m.scan_append hn hs, hbytes]
  rfl

/-- **A line that gives a formula has its line feed**, and its characters lead to a state in which it
may end. -/
theorem scan_eq_some {source : Source} {s : σ} {count : Nat} {f : Formula} {rest : Source}
    (h : m.scan source s count = (.ok (some f), rest)) :
    ∃ bytes s', lineFeed ∉ bytes ∧ source = Source.append bytes (.byte lineFeed rest) ∧
      m.feed s (characters bytes) = .ok s' ∧ m.finish s' = some (some f) := by
  -- The bytes up to the line feed are collected on the way; every other end of a line gives an error.
  induction source generalizing s count with
  | ended => cases count <;> simp [scan] at h
  | failing fault => simp [scan] at h
  | fault kind again rest' ih => simp [scan] at h
  | byte b rest' ih =>
      by_cases hn : b = lineFeed
      · subst hn
        cases hs : m.finish s with
        | none =>
            rw [m.scan_lineFeed_incomplete hs] at h
            simp at h
        | some found =>
            rw [m.scan_lineFeed hs] at h
            obtain ⟨hfound, rfl⟩ := Prod.mk.inj h
            obtain rfl : found = some f := Except.ok.inj hfound
            exact ⟨[], s, List.not_mem_nil, rfl, rfl, hs⟩
      · cases hb : isBlank b with
        | true =>
            rw [m.scan_blank hb] at h
            obtain ⟨bytes, s', hbytes, rfl, hfeed, hs'⟩ := ih h
            refine ⟨b :: bytes, s', ?_, rfl, ?_, hs'⟩
            · rw [List.mem_cons, not_or]
              exact ⟨Ne.symm hn, hbytes⟩
            · rw [characters_cons_blank hb, hfeed]
        | false =>
            cases hc : m.accept s (Token.ofChar (Char.ofUInt8 b)) with
            | error halt =>
                rw [scan, ofByte_token hb hn] at h
                cases halt with
                | incomplete =>
                    simp only [hc] at h
                    simp at h
                | refused why =>
                    simp only [hc] at h
                    exact absurd (congrArg Prod.fst h) (skip_ne_ok _ _ _)
            | ok s₁ =>
                rw [m.scan_token hb hn hc] at h
                obtain ⟨bytes, s', hbytes, rfl, hfeed, hs'⟩ := ih h
                refine ⟨b :: bytes, s', ?_, rfl, ?_, hs'⟩
                · rw [List.mem_cons, not_or]
                  exact ⟨Ne.symm hn, hbytes⟩
                · rw [characters_cons_token hb, m.feed_cons_of_ok hc, hfeed]

/-! ## Reads that a line uses up -/

theorem reads_skip_le (error : LineError) (source : Source) :
    (skip error source).2.reads ≤ source.reads := by
  induction source with
  | ended => exact Nat.le_refl _
  | failing fault => exact Nat.le_refl _
  | fault kind again rest ih =>
      have := Source.reads_afterFault kind again rest
      change (rest.afterFault kind again).reads ≤ _
      omega
  | byte b rest ih =>
      rw [skip, Source.reads_byte]
      split
      · exact Nat.le_succ _
      · exact Nat.le_succ_of_le ih

theorem reads_scan_le (source : Source) (s : σ) (count : Nat) :
    (m.scan source s count).2.reads ≤ source.reads := by
  induction source generalizing s count with
  | ended => cases count <;> exact Nat.le_refl _
  | failing fault => exact Nat.le_refl _
  | fault kind again rest ih =>
      have := Source.reads_afterFault kind again rest
      change (rest.afterFault kind again).reads ≤ _
      omega
  | byte b rest ih =>
      -- The cases are those of `scan`: a blank, a line end, and a token that is accepted or not.
      rw [scan, Source.reads_byte]
      split
      · exact Nat.le_succ_of_le (ih s count)
      · split <;> exact Nat.le_succ _
      · split
        · exact Nat.le_succ_of_le (ih _ _)
        · exact Nat.le_succ_of_le (reads_skip_le _ rest)
        · exact Nat.le_succ _

/-- **Reading a line uses up a read**, unless the source has ended or fails for ever. -/
theorem reads_readLine_lt {source : Source} (hended : source ≠ .ended)
    (hfailing : ∀ fault, source ≠ .failing fault) :
    (m.readLine source).2.reads < source.reads := by
  rw [readLine]
  cases source with
  | ended => exact absurd rfl hended
  | failing fault => exact absurd rfl (hfailing fault)
  | fault kind again rest =>
      have := Source.reads_afterFault kind again rest
      change (rest.afterFault kind again).reads < _
      omega
  | byte b rest =>
      rw [scan, Source.reads_byte]
      split
      · exact Nat.lt_succ_of_le (m.reads_scan_le rest _ _)
      · split <;> exact Nat.lt_succ_self _
      · split
        · exact Nat.lt_succ_of_le (m.reads_scan_le rest _ _)
        · exact Nat.lt_succ_of_le (reads_skip_le _ rest)
        · exact Nat.lt_succ_self _

end Automaton

end PropositionalCalculus.Line
