import PropositionalCalculus.Line.ReversePolish
import PropositionalCalculus.Proofs.Line.Recognition
import PropositionalCalculus.Proofs.Line.Token

/-!
# The reader of lines with every operator after its operands

The formulas on the stack, in the order in which they were put there, spell out what has been read. Any
stack can be joined to one formula by connectives that are still to come (`stack_opens`), so that every
character that is not refused can be continued to a formula, and the automaton recognizes its notation
(`recognizes`).
-/

set_option autoImplicit false

namespace PropositionalCalculus.Line.ReversePolish

open Formula

/-- The characters of the formulas on the stack, the oldest first. -/
def stackSymbols (stack : List Formula) : List Char :=
  stack.reverse.flatMap (symbols .reversePolish)

@[simp] theorem stackSymbols_cons (f : Formula) (stack : List Formula) :
    stackSymbols (f :: stack) = stackSymbols stack ++ f.symbols .reversePolish := by
  simp [stackSymbols]

/-- The characters that lead to a stack are those of its formulas, all of them plain. -/
def After (stack : List Formula) (cs : List Char) : Prop :=
  (∀ f ∈ stack, f.Plain) ∧ cs = stackSymbols stack

theorem After.push {f : Formula} {stack : List Formula} {cs ds : List Char} (h : After stack cs)
    (hf : f.Plain) (hds : ds = stackSymbols (f :: stack)) : After (f :: stack) ds := by
  refine ⟨?_, hds⟩
  intro g hg
  rcases List.mem_cons.1 hg with rfl | hg
  · exact hf
  · exact h.1 g hg

/-- A stack can be joined to one formula. -/
theorem stack_opens {f : Formula} {stack : List Formula} (hf : f.Plain) (hstack : ∀ g ∈ stack, g.Plain) :
    Notation.reversePolish.Opens (stackSymbols (f :: stack)) := by
  -- The two topmost formulas are joined, which leaves a shorter stack.
  induction stack generalizing f with
  | nil =>
      rw [stackSymbols_cons]
      exact Notation.reversePolish.opens_symbols hf
  | cons g stack ih =>
      have hg : g.Plain := hstack g List.mem_cons_self
      have hjoined := ih (f := .compound .conjunction g f) ⟨hg, hf⟩
        (fun e he => hstack e (List.mem_cons_of_mem g he))
      refine hjoined.shorten ⟨[Connective.conjunction.sign], ?_⟩
      simp [symbols]

theorem apply_negation (f : Formula) (stack : List Formula) :
    apply (f :: stack) .negation = .ok (.negation f :: stack) := rfl

theorem apply_connective (left right : Formula) (stack : List Formula) (op : Connective) :
    apply (right :: left :: stack) (.connective op) = .ok (.compound op left right :: stack) := rfl

/-- The symbols of a formula put the formula on the stack. -/
theorem feed_symbols {f : Formula} (hf : f.Plain) (stack : List Formula) :
    automaton.feed stack (f.symbols .reversePolish) = .ok (f :: stack) := by
  induction f generalizing stack with
  | letter c =>
      have hc : automaton.accept stack (Token.ofChar c) = .ok (.letter c :: stack) := by
        rw [Token.ofChar_letter hf]
        rfl
      rw [symbols, automaton.feed_cons_of_ok hc, Automaton.feed_nil]
  | negation body ih =>
      have hsign : automaton.accept (body :: stack) (Token.ofChar Negation.sign) =
          .ok (.negation body :: stack) := by
        rw [Token.ofChar_negation]
        exact apply_negation body stack
      rw [symbols, automaton.feed_append_of_ok (ih hf stack), automaton.feed_cons_of_ok hsign,
        Automaton.feed_nil]
  | compound op left right ihl ihr =>
      have hsign : automaton.accept (right :: left :: stack) (Token.ofChar op.sign) =
          .ok (.compound op left right :: stack) := by
        rw [Token.ofChar_sign]
        exact apply_connective left right stack op
      rw [symbols, automaton.feed_append_of_ok (ihl hf.1 stack),
        automaton.feed_append_of_ok (ihr hf.2 _), automaton.feed_cons_of_ok hsign, Automaton.feed_nil]

/-- An operator is redundant on a stack that is too short for it, and is applied on any other. -/
theorem accept_operator {stack stack' : List Formula} {t : Token}
    (ht : t = .negation ∨ ∃ op, t = .connective op) (h : accept stack t = .ok stack') :
    (∃ f rest, t = .negation ∧ stack = f :: rest ∧ stack' = .negation f :: rest) ∨
      ∃ op left right rest, t = .connective op ∧ stack = right :: left :: rest ∧
        stack' = .compound op left right :: rest := by
  rcases ht with rfl | ⟨op, rfl⟩
  · cases stack with
    | nil => simp [accept, apply, Operation.vacancies] at h
    | cons f rest =>
        obtain rfl := Except.ok.inj h
        exact Or.inl ⟨f, rest, rfl, rfl, rfl⟩
  · cases stack with
    | nil => simp [accept, apply, Operation.vacancies] at h
    | cons right rest =>
        cases rest with
        | nil => simp [accept, apply, Operation.vacancies] at h
        | cons left rest =>
            obtain rfl := Except.ok.inj h
            exact Or.inr ⟨op, left, right, rest, rfl, rfl, rfl⟩

theorem after_operator {stack stack' : List Formula} {cs : List Char} {t : Token} (h : After stack cs)
    (ht : t = .negation ∨ ∃ op, t = .connective op) (haccept : accept stack t = .ok stack') :
    After stack' (cs ++ [t.char]) := by
  obtain ⟨hplain, rfl⟩ := h
  rcases accept_operator ht haccept with ⟨f, rest, rfl, rfl, rfl⟩ | ⟨op, left, right, rest, rfl, rfl, rfl⟩
  · have hrest : After rest (stackSymbols rest) := ⟨fun g hg => hplain g (by simp [hg]), rfl⟩
    apply hrest.push (f := .negation f) (hplain f (by simp))
    simp [symbols, Token.char]
  · have hrest : After rest (stackSymbols rest) := ⟨fun g hg => hplain g (by simp [hg]), rfl⟩
    apply hrest.push (f := .compound op left right) ⟨hplain left (by simp), hplain right (by simp)⟩
    simp [symbols, Token.char]

theorem after_accept {stack stack' : List Formula} {cs : List Char} {c : Char} (h : After stack cs)
    (hc : accept stack (Token.ofChar c) = .ok stack') : After stack' (cs ++ [c]) := by
  cases ht : Token.ofChar c with
  | letter d =>
      rw [ht] at hc
      obtain rfl := Except.ok.inj hc
      rw [Token.eq_char ht]
      refine h.push (Token.isPlainLetter_of_ofChar ht) ?_
      rw [h.2, stackSymbols_cons]
      rfl
  | negation =>
      rw [Token.eq_char ht]
      exact after_operator h (Or.inl rfl) (ht ▸ hc)
  | connective op =>
      rw [Token.eq_char ht]
      exact after_operator h (Or.inr ⟨op, rfl⟩) (ht ▸ hc)
  | opening => simp [ht, accept] at hc
  | closing => simp [ht, accept] at hc
  | foreign d => simp [ht, accept] at hc

/-- An operator that is not applied is redundant. -/
theorem apply_error {stack : List Formula} {t : Token} {halt : Halt}
    (ht : t = .negation ∨ ∃ op, t = .connective op) (h : accept stack t = .error halt) :
    halt = .refused .redundant := by
  rcases ht with rfl | ⟨op, rfl⟩
  · cases stack with
    | nil => exact (Except.error.inj h).symm
    | cons f rest => exact nomatch h
  · cases stack with
    | nil => exact (Except.error.inj h).symm
    | cons right rest =>
        cases rest with
        | nil => exact (Except.error.inj h).symm
        | cons left rest => exact nomatch h

/-- A refused token is illegal exactly when the notation does not know it. -/
theorem refused_of_accept {stack : List Formula} {t : Token} {halt : Halt}
    (h : accept stack t = .error halt) :
    ∃ why, halt = .refused why ∧ (why = .illegal ↔ ¬ t.KnownTo .reversePolish) := by
  cases t with
  | letter d => simp [accept] at h
  | negation => exact ⟨.redundant, apply_error (Or.inl rfl) h, by simp [Token.KnownTo]⟩
  | connective op => exact ⟨.redundant, apply_error (Or.inr ⟨op, rfl⟩) h, by simp [Token.KnownTo]⟩
  | opening => exact ⟨.illegal, (Except.error.inj h).symm, by simp [Token.KnownTo]⟩
  | closing => exact ⟨.illegal, (Except.error.inj h).symm, by simp [Token.KnownTo]⟩
  | foreign d => exact ⟨.illegal, (Except.error.inj h).symm, by simp [Token.KnownTo]⟩

/-- **The automaton reads the notation with every operator after its operands.** -/
theorem recognizes : automaton.Recognizes .reversePolish After where
  start := ⟨fun f hf => absurd hf List.not_mem_nil, rfl⟩
  step := after_accept
  blank := rfl
  reads {f} hf := ⟨[f], feed_symbols hf [], rfl⟩
  opens {stack cs} h := by
    obtain ⟨hplain, rfl⟩ := h
    cases stack with
    | nil => exact Notation.reversePolish.opens_nil
    | cons f rest => exact stack_opens (hplain f (by simp)) fun g hg => hplain g (by simp [hg])
  nothing {stack cs} h hfinish := by
    obtain ⟨-, rfl⟩ := h
    match stack, hfinish with
    | [], _ => rfl
    | [_], hfinish => simp [automaton, finish] at hfinish
    | _ :: _ :: _, hfinish => simp [automaton, finish] at hfinish
  found {stack cs f} h hfinish := by
    obtain ⟨hplain, rfl⟩ := h
    match stack, hfinish with
    | [], hfinish => simp [automaton, finish] at hfinish
    | [g], hfinish =>
        obtain rfl : g = f := Option.some.inj (Option.some.inj hfinish)
        refine ⟨hplain g (by simp), ?_⟩
        rw [stackSymbols_cons]
        rfl
    | _ :: _ :: _, hfinish => simp [automaton, finish] at hfinish
  refuses _ hc := by
    obtain ⟨why, hhalt, hwhy⟩ := refused_of_accept hc
    exact ⟨why, hhalt, by rw [hwhy, Token.uses_iff]⟩

end PropositionalCalculus.Line.ReversePolish
