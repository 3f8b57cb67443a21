import PropositionalCalculus.Line.Bracketed
import PropositionalCalculus.Proofs.Line.Recognition
import PropositionalCalculus.Proofs.Line.Token

/-!
# The reader of lines with connectives between bracketed operands

The open levels and the operands of the brackets spell out what has been read. `Awaiting levels operands cs`
says so for levels that all wait for an operand, and `After` for any state: above such levels there may be
one more bracket, with its first operand or with both, or else the formula of the line is complete. An
operand passes through the negations that wait for it and then belongs to a bracket (`after_settle`), and
waiting levels can always be closed (`awaiting_opens`). So the automaton recognizes its notation
(`recognizes`).
-/

set_option autoImplicit false

namespace PropositionalCalculus.Line.Bracketed

open Formula

/-- The characters read so far leave these levels open, with these operands, and every level waits for an
operand. -/
inductive Awaiting : List Level → List Formula → List Char → Prop where
  | nil : Awaiting [] [] []
  | negation {ls : List Level} {fs : List Formula} {cs : List Char} :
      Awaiting ls fs cs → Awaiting (.negation .negation :: ls) fs (cs ++ [Negation.sign])
  | blank {ls : List Level} {fs : List Formula} {cs : List Char} :
      Awaiting ls fs cs → Awaiting (.blank :: ls) fs (cs ++ ['('])
  | operator {ls : List Level} {fs : List Formula} {cs : List Char} {f : Formula} (op : Connective) :
      Awaiting ls fs cs → f.Plain →
        Awaiting (.operator (.connective op) :: ls) (f :: fs)
          (cs ++ '(' :: (f.symbols .bracketed ++ [op.sign]))

/-- The characters that lead to a state. -/
inductive After : State → List Char → Prop where
  | awaiting {ls : List Level} {fs : List Formula} {cs : List Char} :
      Awaiting ls fs cs → After ⟨ls, fs⟩ cs
  | first {ls : List Level} {fs : List Formula} {cs : List Char} {f : Formula} :
      Awaiting ls fs cs → f.Plain → After ⟨.first :: ls, f :: fs⟩ (cs ++ '(' :: f.symbols .bracketed)
  | last {ls : List Level} {fs : List Formula} {cs : List Char} {f g : Formula} (op : Connective) :
      Awaiting ls fs cs → f.Plain → g.Plain →
        After ⟨.last (.connective op) :: ls, g :: f :: fs⟩
          (cs ++ '(' :: (f.symbols .bracketed ++ op.sign :: g.symbols .bracketed))
  | complete {f : Formula} : f.Plain → After ⟨[], [f]⟩ (f.symbols .bracketed)

/-- Waiting levels can be closed, beginning with any plain formula as operand. -/
theorem awaiting_opens {ls : List Level} {fs : List Formula} {cs : List Char} (h : Awaiting ls fs cs)
    {f : Formula} (hf : f.Plain) : Notation.bracketed.Opens (cs ++ f.symbols .bracketed) := by
  induction h generalizing f with
  | nil => exact Notation.bracketed.opens_symbols hf
  | @negation ls fs cs _ ih =>
      rw [List.append_assoc]
      exact ih (f := .negation f) hf
  | @blank ls fs cs _ ih =>
      -- Any connective and any letter do for what is missing.
      have hboth := ih (f := .compound .conjunction f (.letter 'A')) ⟨hf, plain_letter_A⟩
      refine hboth.shorten ⟨[Connective.conjunction.sign, 'A', ')'], ?_⟩
      simp [symbols]
  | @operator ls fs cs e op _ he ih =>
      have hboth := ih (f := .compound op e f) ⟨he, hf⟩
      refine hboth.shorten ⟨[')'], ?_⟩
      simp [symbols]

/-- The characters that lead to a state begin a formula. -/
theorem after_opens {s : State} {cs : List Char} (h : After s cs) : Notation.bracketed.Opens cs := by
  cases h with
  | awaiting hls => exact (awaiting_opens hls plain_letter_A).shorten (List.prefix_append _ _)
  | @first ls fs cs f hls hf =>
      have hboth := awaiting_opens hls (f := .compound .conjunction f (.letter 'A')) ⟨hf, plain_letter_A⟩
      refine hboth.shorten ⟨[Connective.conjunction.sign, 'A', ')'], ?_⟩
      simp [symbols]
  | @last ls fs cs f g op hls hf hg =>
      have hboth := awaiting_opens hls (f := .compound op f g) ⟨hf, hg⟩
      refine hboth.shorten ⟨[')'], ?_⟩
      simp [symbols]
  | complete hf => exact Notation.bracketed.opens_symbols hf

/-- An operand given to waiting levels is read together with what they were waiting for. -/
theorem after_settle {ls : List Level} {fs : List Formula} {cs : List Char} (h : Awaiting ls fs cs)
    {f : Formula} (hf : f.Plain) :
    ∃ s, settle ls fs f = .ok s ∧ After s (cs ++ f.symbols .bracketed) := by
  induction h generalizing f with
  | nil => exact ⟨_, rfl, After.complete hf⟩
  | @negation ls fs cs _ ih =>
      rw [List.append_assoc]
      exact ih (f := .negation f) hf
  | @blank ls fs cs hls _ =>
      rw [List.append_assoc]
      exact ⟨_, rfl, After.first hls hf⟩
  | @operator ls fs cs e op hls he _ =>
      refine ⟨_, rfl, ?_⟩
      have hlast := After.last op hls he hf
      rwa [List.append_assoc, List.cons_append, List.append_assoc, List.singleton_append]

/-! ## The state after a token -/

/-- Levels that wait are none at all, or the innermost one waits. -/
theorem awaitsOperand_of_awaiting {l : Level} {ls : List Level} {fs : List Formula} {cs : List Char}
    (h : Awaiting (l :: ls) fs cs) : l.awaitsOperand = true := by
  cases h <;> rfl

theorem openLevel_of_awaiting {ls : List Level} {fs : List Formula} {cs : List Char}
    (h : Awaiting ls fs cs) (l : Level) : openLevel ⟨ls, fs⟩ l = .ok ⟨l :: ls, fs⟩ := by
  cases ls with
  | nil =>
      cases h
      rfl
  | cons top ls => exact if_pos (awaitsOperand_of_awaiting h)

theorem accept_letter_of_awaiting {ls : List Level} {fs : List Formula} {cs : List Char}
    (h : Awaiting ls fs cs) (c : Char) : accept ⟨ls, fs⟩ (.letter c) = settle ls fs (.letter c) := by
  cases ls with
  | nil =>
      cases h
      rfl
  | cons top ls => exact if_pos (awaitsOperand_of_awaiting h)

/-- The symbols of a formula have the effect of the formula as an operand. -/
theorem feed_symbols {f : Formula} (hf : f.Plain) {ls : List Level} {fs : List Formula}
    {cs : List Char} (h : Awaiting ls fs cs) :
    automaton.feed ⟨ls, fs⟩ (f.symbols .bracketed) = settle ls fs f := by
  induction f generalizing ls fs cs with
  | letter c =>
      obtain ⟨s, hs, -⟩ := after_settle h hf
      have hc : automaton.accept ⟨ls, fs⟩ (Token.ofChar c) = .ok s := by
        rw [Token.ofChar_letter hf]
        exact (accept_letter_of_awaiting h c).trans hs
      rw [symbols, automaton.feed_cons_of_ok hc, Automaton.feed_nil, hs]
  | negation body ih =>
      have hsign : automaton.accept ⟨ls, fs⟩ (Token.ofChar Negation.sign) =
          .ok ⟨.negation .negation :: ls, fs⟩ := by
        rw [Token.ofChar_negation]
        exact openLevel_of_awaiting h _
      rw [symbols, automaton.feed_cons_of_ok hsign, ih hf (Awaiting.negation h)]
      rfl
  | compound op left right ihl ihr =>
      have hopening : automaton.accept ⟨ls, fs⟩ (Token.ofChar '(') = .ok ⟨.blank :: ls, fs⟩ := by
        rw [Token.ofChar_opening]
        exact openLevel_of_awaiting h _
      have hleft : automaton.feed ⟨.blank :: ls, fs⟩ (left.symbols .bracketed) =
          .ok ⟨.first :: ls, left :: fs⟩ := ihl hf.1 (Awaiting.blank h)
      have hsign : automaton.accept ⟨.first :: ls, left :: fs⟩ (Token.ofChar op.sign) =
          .ok ⟨.operator (.connective op) :: ls, left :: fs⟩ := by
        rw [Token.ofChar_sign]
        rfl
      have hright : automaton.feed ⟨.operator (.connective op) :: ls, left :: fs⟩
          (right.symbols .bracketed) = .ok ⟨.last (.connective op) :: ls, right :: left :: fs⟩ :=
        ihr hf.2 (Awaiting.operator op h hf.1)
      -- The bracket is closed, and its formula becomes an operand of what was open before.
      obtain ⟨s, hs, -⟩ := after_settle h hf
      have hclosing : automaton.accept ⟨.last (.connective op) :: ls, right :: left :: fs⟩
          (Token.ofChar ')') = .ok s := by
        rw [Token.ofChar_closing]
        exact hs
      rw [symbols, automaton.feed_cons_of_ok hopening, automaton.feed_append_of_ok hleft,
        automaton.feed_cons_of_ok hsign, automaton.feed_append_of_ok hright,
        automaton.feed_cons_of_ok hclosing, Automaton.feed_nil, hs]

/-- A level that waits for an operand neither takes a connective nor can it be closed. -/
theorem refused_of_awaiting {ls : List Level} {fs : List Formula} {cs : List Char}
    (h : Awaiting ls fs cs) {t : Token} (ht : t = .closing ∨ ∃ op, t = .connective op) :
    ∃ why, accept ⟨ls, fs⟩ t = .error (.refused why) ∧ why ≠ .illegal := by
  rcases ht with rfl | ⟨op, rfl⟩
  · cases h with
    | nil => exact ⟨.redundant, rfl, nofun⟩
    | _ => exact ⟨.unexpected, rfl, nofun⟩
  · cases h <;> exact ⟨.unexpected, rfl, nofun⟩

/-- What becomes of a state and one more token: a state again, or the token is refused. -/
theorem accept_cases {s : State} {cs : List Char} {t : Token} (h : After s cs)
    (ht : ∀ d, t = .letter d → isPlainLetter d = true) :
    (∃ s', accept s t = .ok s' ∧ After s' (cs ++ [t.char])) ∨
      ∃ why, accept s t = .error (.refused why) ∧ (why = .illegal ↔ ¬ t.KnownTo .bracketed) := by
  -- A token may follow in one kind of state, and is refused in the others.
  cases t with
  | foreign d => exact Or.inr ⟨.illegal, rfl, by simp [Token.KnownTo]⟩
  | letter d =>
      cases h with
      | awaiting hls =>
          obtain ⟨s', hs', hafter⟩ := after_settle (f := .letter d) hls (ht d rfl)
          exact Or.inl ⟨s', (accept_letter_of_awaiting hls d).trans hs', hafter⟩
      | first hls hf => exact Or.inr ⟨.unexpected, rfl, by simp [Token.KnownTo]⟩
      | last op hls hf hg => exact Or.inr ⟨.unexpected, rfl, by simp [Token.KnownTo]⟩
      | complete hf => exact Or.inr ⟨.unexpected, rfl, by simp [Token.KnownTo]⟩
  | negation =>
      cases h with
      | awaiting hls =>
          exact Or.inl ⟨_, openLevel_of_awaiting hls _, After.awaiting (Awaiting.negation hls)⟩
      | first hls hf => exact Or.inr ⟨.unexpected, rfl, by simp [Token.KnownTo]⟩
      | last op hls hf hg => exact Or.inr ⟨.unexpected, rfl, by simp [Token.KnownTo]⟩
      | complete hf => exact Or.inr ⟨.redundant, rfl, by simp [Token.KnownTo]⟩
  | opening =>
      cases h with
      | awaiting hls =>
          exact Or.inl ⟨_, openLevel_of_awaiting hls _, After.awaiting (Awaiting.blank hls)⟩
      | first hls hf => exact Or.inr ⟨.unexpected, rfl, by simp [Token.KnownTo]⟩
      | last op hls hf hg => exact Or.inr ⟨.unexpected, rfl, by simp [Token.KnownTo]⟩
      | complete hf => exact Or.inr ⟨.redundant, rfl, by simp [Token.KnownTo]⟩
  | connective op =>
      cases h with
      | awaiting hls =>
          obtain ⟨why, haccept, hwhy⟩ := refused_of_awaiting hls (Or.inr ⟨op, rfl⟩)
          exact Or.inr ⟨why, haccept, by simp [Token.KnownTo, hwhy]⟩
      | first hls hf =>
          refine Or.inl ⟨_, rfl, ?_⟩
          have hoperator := After.awaiting (Awaiting.operator op hls hf)
          rwa [← List.cons_append, ← List.append_assoc] at hoperator
      | last op' hls hf hg => exact Or.inr ⟨.unexpected, rfl, by simp [Token.KnownTo]⟩
      | complete hf => exact Or.inr ⟨.redundant, rfl, by simp [Token.KnownTo]⟩
  | closing =>
      cases h with
      | awaiting hls =>
          obtain ⟨why, haccept, hwhy⟩ := refused_of_awaiting hls (Or.inl rfl)
          exact Or.inr ⟨why, haccept, by simp [Token.KnownTo, hwhy]⟩
      | first hls hf => exact Or.inr ⟨.unexpected, rfl, by simp [Token.KnownTo]⟩
      | @last ls fs cs f g op hls hf hg =>
          obtain ⟨s', hs', hafter⟩ := after_settle (f := .compound op f g) hls ⟨hf, hg⟩
          refine Or.inl ⟨s', hs', ?_⟩
          simpa [symbols, Token.char] using hafter
      | complete hf => exact Or.inr ⟨.redundant, rfl, by simp [Token.KnownTo]⟩

/-- **The automaton reads the notation with connectives between bracketed operands.** -/
theorem recognizes : automaton.Recognizes .bracketed After where
  start := After.awaiting Awaiting.nil
  step {s s' cs c} h hc := by
    rcases accept_cases h fun d => Token.isPlainLetter_of_ofChar with ⟨s₁, hs₁, hafter⟩ | ⟨why, hwhy, -⟩
    · obtain rfl : s₁ = s' := Except.ok.inj (hs₁.symm.trans hc)
      rwa [Token.char_ofChar] at hafter
    · exact nomatch hwhy.symm.trans hc
  blank := rfl
  reads {f} hf := ⟨⟨[], [f]⟩, feed_symbols hf Awaiting.nil, rfl⟩
  opens := after_opens
  nothing {s cs} h hfinish := by
    cases h with
    | awaiting hls =>
        cases hls with
        | nil => rfl
        | _ => simp [automaton, finish] at hfinish
    | _ => simp [automaton, finish] at hfinish
  found {s cs f} h hfinish := by
    cases h with
    | awaiting hls => cases hls <;> simp [automaton, finish] at hfinish
    | first hls hf => simp [automaton, finish] at hfinish
    | last op hls hf hg => simp [automaton, finish] at hfinish
    | complete hf =>
        obtain rfl := Option.some.inj (Option.some.inj hfinish)
        exact ⟨hf, rfl⟩
  refuses {s cs c halt} h hc := by
    rcases accept_cases h fun d => Token.isPlainLetter_of_ofChar with ⟨s₁, hs₁, -⟩ | ⟨why, hwhy, hknown⟩
    · exact nomatch hs₁.symm.trans hc
    · obtain rfl := Except.error.inj (hwhy.symm.trans hc)
      exact ⟨why, rfl, by rw [hknown, Token.uses_iff]⟩

end PropositionalCalculus.Line.Bracketed
