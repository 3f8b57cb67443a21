import Mathlib.Algebra.GroupWithZero.Nat
import Mathlib.Data.List.Induction
import PropositionalCalculus.Proofs.Line.Redundancy

/-!
# Operands and open levels

Between bracketed operands a reader keeps its operands on one stack and the open levels on another. A level holds the
operands that have been given to it (`Bracketed.Level.held`), and the stacks are in step when there are as many operands
as the levels hold, or one where the formula of the line is complete (`Bracketed.InStep`). An operand that settles
keeps them in step (`Bracketed.inStep_of_settle`), so does every token that is accepted
(`Bracketed.accept_staysInStep`), and so does every sequence of tokens (`Bracketed.inStep_of_run`).

So a bracket that is closed finds both operands, a negation takes one, and no operand is left behind at the end. An
operator that comes after its operands finds them as well, for it is redundant on a shorter stack. What the readers have
in store for missing operands is never given: a line is incomplete nowhere but at its end (`operands_never_missing`).
-/

set_option autoImplicit false

namespace PropositionalCalculus

/-- **An operation that finds enough formulas takes as many as it misses.** -/
theorem Operation.exists_saturate {operation : Operation} {stack : List Formula}
    (h : operation.vacancies ≤ stack.length) :
    ∃ f, operation.saturate stack = (some f, stack.drop operation.vacancies) := by
  cases stack with
  | nil => cases operation <;> simp [vacancies] at h
  | cons right stack =>
      cases operation with
      | connective op =>
          -- Two formulas are missing, and the second one lies below the first.
          cases stack with
          | nil => simp [vacancies] at h
          | cons left stack => exact ⟨.compound op left right, rfl⟩
      | _ => exact ⟨_, rfl⟩

namespace Line

/-! ## Sequences of tokens -/

/-- The tokens that the bytes of a line stand for. -/
def tokens (bytes : List UInt8) : List Token :=
  (characters bytes).map Token.ofChar

/-- A line with a refused character is not called incomplete. -/
theorem skip_refused_ne_incomplete (why : Refusal) (c : Char) (position : Nat) (source : Source) :
    (skip (.refused why c position) source).1 ≠ .error .incomplete := by
  induction source with
  | byte b rest ih =>
      rw [skip]
      split
      · simp
      · exact ih
  | _ => simp [skip]

namespace Automaton

variable {σ : Type} (m : Automaton σ)

/-- The state after the tokens, or why the automaton halts at one of them. -/
def run (ts : List Token) : Except Halt σ :=
  ts.foldlM m.accept m.start

theorem run_tokens (bytes : List UInt8) : m.run (tokens bytes) = m.feed m.start (characters bytes) := by
  rw [run, tokens, List.foldlM_map]
  rfl

theorem run_snoc (ts : List Token) (t : Token) : m.run (ts ++ [t]) = m.run ts >>= fun s => m.accept s t := by
  simp [run]

/-- **What holds at the start and is kept by every token holds after all sequences of tokens.** -/
theorem run_preserves {Inv : List Token → σ → Prop} (start : Inv [] m.start)
    (step : ∀ {ts s t s'}, Inv ts s → m.accept s t = .ok s' → Inv (ts ++ [t]) s') {ts : List Token} {s : σ}
    (h : m.run ts = .ok s) : Inv ts s := by
  induction ts using List.reverseRecOn generalizing s with
  | nil =>
      obtain rfl := Except.ok.inj h
      exact start
  | append_singleton ts t ih =>
      rw [run_snoc] at h
      cases hts : m.run ts with
      | error halt =>
          rw [hts] at h
          exact nomatch h
      | ok s' =>
          rw [hts] at h
          exact step (ih hts) h

/-- The line ends where the automaton has accepted its tokens but may not end. -/
def EndsWithin (source rest : Source) : Prop :=
  ∃ w s, lineFeed ∉ w ∧ source = .append w (.byte lineFeed rest) ∧ m.run (tokens w) = .ok s ∧ m.finish s = none

variable {m} {n : Notation} {After : σ → List Char → Prop}

/-- An automaton that has accepted the tokens of a line calls it incomplete only at a line feed. -/
theorem incomplete_of_scan {tail rest : Source} {s : σ} {count : Nat}
    (htail : tail = .ended ∨ tail.Fails ∨ ∃ rest, tail = .byte lineFeed rest)
    (hscan : m.scan tail s count = (.error .incomplete, rest)) :
    tail = .byte lineFeed rest ∧ m.finish s = none := by
  rcases htail with rfl | hfails | ⟨rest', rfl⟩
  · cases count <;> exact nomatch hscan
  · cases tail with
    | ended => exact hfails.elim
    | byte b rest' => exact hfails.elim
    | _ => exact nomatch hscan
  · cases hfinish : m.finish s with
    | none =>
        rw [m.scan_lineFeed_incomplete hfinish] at hscan
        obtain ⟨-, rfl⟩ := Prod.mk.inj hscan
        exact ⟨rfl, rfl⟩
    | some found =>
        rw [m.scan_lineFeed hfinish] at hscan
        exact nomatch hscan

/-- **A line is incomplete nowhere but at its end.** -/
theorem Recognizes.readLine_eq_incomplete_iff (h : m.Recognizes n After) {source rest : Source} :
    m.readLine source = (.error .incomplete, rest) ↔ m.EndsWithin source rest := by
  constructor
  · intro hline
    obtain ⟨w, tail, hw, rfl, htail⟩ := source.exists_line
    rcases h.feed_cases (characters w) with ⟨s, hs⟩ | ⟨before, c, after, s, why, hchars, hbefore, hc⟩
    · rw [readLine, m.scan_append hw hs] at hline
      obtain ⟨rfl, hfinish⟩ := incomplete_of_scan htail hline
      exact ⟨w, s, hw, rfl, by rw [run_tokens, hs], hfinish⟩
    · rw [readLine, m.scan_refused hw hchars hbefore hc] at hline
      exact absurd (congrArg Prod.fst hline) (skip_refused_ne_incomplete _ _ _ _)
  · rintro ⟨w, s, hw, rfl, hs, hfinish⟩
    rw [run_tokens] at hs
    rw [readLine, m.scan_append hw hs, m.scan_lineFeed_incomplete hfinish]

end Automaton

namespace Bracketed

namespace Level

/-- The number of operands that have been given to a level. -/
def held : Level → Nat
  | negation _ => 0
  | blank => 0
  | first => 1
  | operator _ => 1
  | last _ => 2

/-- The operation of a level is a negation or a connective, without any operand. -/
def Unfilled : Level → Prop
  | negation operation => operation = .negation
  | blank => True
  | first => True
  | operator operation => ∃ op, operation = .connective op
  | last operation => ∃ op, operation = .connective op

end Level

/-- After these tokens the two stacks are in step. -/
structure InStep (ts : List Token) (s : State) : Prop where
  /-- The levels hold the operands, and without a level there is one operand as soon as there is a token. -/
  count : s.operands.length = (s.levels.map Level.held).sum + if s.levels = [] ∧ ts ≠ [] then 1 else 0
  unfilled : ∀ l ∈ s.levels, l.Unfilled
  /-- All levels but the innermost one wait for what is inside. -/
  waiting : ∀ l ∈ s.levels.tail, l.awaitsOperand = true
  /-- The stacks show whether there has been a token. -/
  fresh : s.isFresh = true ↔ ts = []

theorem isFresh_nil_iff {operands : List Formula} : State.isFresh ⟨[], operands⟩ = true ↔ operands = [] :=
  List.isEmpty_iff

theorem inStep_nil_iff {ts : List Token} {operands : List Formula} :
    InStep ts ⟨[], operands⟩ ↔ operands.length = if ts = [] then 0 else 1 := by
  constructor
  · intro h
    have hcount := h.count
    by_cases hts : ts = [] <;> simpa [hts] using hcount
  · intro h
    refine ⟨by simpa using h, nofun, nofun, ?_⟩
    rw [isFresh_nil_iff, ← List.length_eq_zero_iff, h]
    by_cases hts : ts = [] <;> simp [hts]

theorem inStep_cons_iff {ts : List Token} {l : Level} {levels : List Level} {operands : List Formula} :
    InStep ts ⟨l :: levels, operands⟩ ↔
      ts ≠ [] ∧ operands.length = l.held + (levels.map Level.held).sum ∧ (∀ l' ∈ l :: levels, l'.Unfilled) ∧
        ∀ l' ∈ levels, l'.awaitsOperand = true := by
  constructor
  · intro h
    refine ⟨?_, ?_, h.unfilled, h.waiting⟩
    · rw [Ne, ← h.fresh]
      exact Bool.false_ne_true
    · simpa using h.count
  · rintro ⟨hts, hcount, hunfilled, hwaiting⟩
    exact ⟨by simpa using hcount, hunfilled, hwaiting, iff_of_false Bool.false_ne_true hts⟩

/-! ## Operands that settle -/

/-- **An operand goes through negations without an operand.** -/
theorem exists_settle {levels : List Level} (hlevels : ∀ l ∈ levels, l.Unfilled) (operands : List Formula)
    (f : Formula) : ∃ s, settle levels operands f = .ok s := by
  induction levels generalizing f with
  | nil => exact ⟨_, rfl⟩
  | cons l levels ih =>
      rw [List.forall_mem_cons] at hlevels
      cases l with
      | negation operation =>
          obtain rfl : operation = .negation := hlevels.1
          exact ih hlevels.2 (.negation f)
      | _ => exact ⟨_, rfl⟩

/-- Levels that wait are one operand richer when it has settled. -/
theorem inStep_of_settle {levels : List Level} {operands : List Formula} {f : Formula} {s : State}
    {ts : List Token} (hts : ts ≠ []) (hunfilled : ∀ l ∈ levels, l.Unfilled)
    (hwaiting : ∀ l ∈ levels, l.awaitsOperand = true)
    (hcount : operands.length = (levels.map Level.held).sum) (h : settle levels operands f = .ok s) :
    InStep ts s := by
  induction levels generalizing f with
  | nil =>
      obtain rfl := Except.ok.inj h
      rw [inStep_nil_iff, if_neg hts]
      exact congrArg Nat.succ hcount
  | cons l levels ih =>
      rw [List.forall_mem_cons] at hunfilled hwaiting
      rw [List.map_cons, List.sum_cons] at hcount
      cases l with
      | negation operation =>
          obtain rfl : operation = .negation := hunfilled.1
          exact ih hunfilled.2 hwaiting.2 (hcount.trans (Nat.zero_add _)) h
      | first => exact nomatch hwaiting.1
      | last operation => exact nomatch hwaiting.1
      | _ =>
          -- The operand belongs to a bracket, and goes no further.
          obtain rfl := Except.ok.inj h
          rw [inStep_cons_iff, List.forall_mem_cons]
          refine ⟨hts, ?_, ⟨hunfilled.1, hunfilled.2⟩, hwaiting.2⟩
          rw [List.length_cons, hcount, Nat.add_right_comm]
          rfl

/-- A bracket that is closed finds both operands. -/
theorem exists_saturate_of_inStep {ts : List Token} {operation : Operation} {levels : List Level}
    {operands : List Formula} (h : InStep ts ⟨.last operation :: levels, operands⟩) :
    ∃ f, operation.saturate operands = (some f, operands.drop 2) ∧
      (operands.drop 2).length = (levels.map Level.held).sum := by
  obtain ⟨-, hcount, hunfilled, -⟩ := inStep_cons_iff.1 h
  obtain ⟨op, rfl⟩ : (Level.last operation).Unfilled := hunfilled _ List.mem_cons_self
  have hboth : (Operation.connective op).vacancies ≤ operands.length := by
    rw [hcount]
    exact Nat.le_add_right 2 _
  obtain ⟨f, hf⟩ := Operation.exists_saturate hboth
  refine ⟨f, hf, ?_⟩
  rw [List.length_drop, hcount]
  exact Nat.add_sub_cancel_left 2 _

/-! ## Tokens -/

/-- Behind these tokens the stacks are in step, or the last one is refused. -/
def StaysInStep (ts : List Token) (outcome : Except Halt State) : Prop :=
  (∃ s, outcome = .ok s ∧ InStep ts s) ∨ ∃ why, outcome = .error (.refused why)

section Tokens

variable {ts : List Token} {s : State}

/-- A level is opened where an operand may begin. -/
theorem openLevel_staysInStep (h : InStep ts s) {l : Level} (hl : l.Unfilled) (hheld : l.held = 0) (t : Token) :
    StaysInStep (ts ++ [t]) (openLevel s l) := by
  rcases s with ⟨_ | ⟨top, levels⟩, operands⟩
  · by_cases hfresh : State.isFresh ⟨[], operands⟩ = true
    · obtain rfl := isFresh_nil_iff.1 hfresh
      refine Or.inl ⟨_, rfl, inStep_cons_iff.2 ⟨List.concat_ne_nil _ _, hheld.symm, ?_, nofun⟩⟩
      exact List.forall_mem_cons.2 ⟨hl, nofun⟩
    · exact Or.inr ⟨_, if_neg hfresh⟩
  · obtain ⟨-, hcount, hunfilled, hwaiting⟩ := inStep_cons_iff.1 h
    by_cases hawaits : top.awaitsOperand = true
    · refine Or.inl ⟨_, if_pos hawaits, inStep_cons_iff.2 ⟨List.concat_ne_nil _ _, ?_, ?_, ?_⟩⟩
      · rw [hheld, Nat.zero_add, hcount, List.map_cons, List.sum_cons]
      · exact List.forall_mem_cons.2 ⟨hl, hunfilled⟩
      · exact List.forall_mem_cons.2 ⟨hawaits, hwaiting⟩
    · exact Or.inr ⟨_, if_neg hawaits⟩

theorem accept_letter_staysInStep (h : InStep ts s) (c : Char) :
    StaysInStep (ts ++ [.letter c]) (accept s (.letter c)) := by
  rcases s with ⟨_ | ⟨top, levels⟩, operands⟩
  · by_cases hfresh : State.isFresh ⟨[], operands⟩ = true
    · obtain rfl := isFresh_nil_iff.1 hfresh
      refine Or.inl ⟨_, rfl, inStep_nil_iff.2 ?_⟩
      rw [if_neg (List.concat_ne_nil _ _)]
      rfl
    · exact Or.inr ⟨_, if_neg hfresh⟩
  · obtain ⟨-, hcount, hunfilled, hwaiting⟩ := inStep_cons_iff.1 h
    by_cases hawaits : top.awaitsOperand = true
    · obtain ⟨s', hs'⟩ := exists_settle hunfilled operands (.letter c)
      have hall : ∀ l ∈ top :: levels, l.awaitsOperand = true := List.forall_mem_cons.2 ⟨hawaits, hwaiting⟩
      refine Or.inl ⟨s', (if_pos hawaits).trans hs', ?_⟩
      exact inStep_of_settle (List.concat_ne_nil _ _) hunfilled hall hcount hs'
    · exact Or.inr ⟨_, if_neg hawaits⟩

theorem accept_connective_staysInStep (h : InStep ts s) (op : Connective) :
    StaysInStep (ts ++ [.connective op]) (accept s (.connective op)) := by
  rcases s with ⟨_ | ⟨top, levels⟩, operands⟩
  · exact Or.inr ⟨_, rfl⟩
  · cases top with
    | first =>
        obtain ⟨-, hcount, hunfilled, hwaiting⟩ := inStep_cons_iff.1 h
        refine Or.inl ⟨_, rfl, inStep_cons_iff.2 ⟨List.concat_ne_nil _ _, hcount, ?_, hwaiting⟩⟩
        exact List.forall_mem_cons.2 ⟨⟨op, rfl⟩, (List.forall_mem_cons.1 hunfilled).2⟩
    | _ => exact Or.inr ⟨_, rfl⟩

theorem accept_closing_staysInStep (h : InStep ts s) : StaysInStep (ts ++ [.closing]) (accept s .closing) := by
  rcases s with ⟨_ | ⟨top, levels⟩, operands⟩
  · exact Or.inr ⟨_, rfl⟩
  · cases top with
    | last operation =>
        obtain ⟨-, -, hunfilled, hwaiting⟩ := inStep_cons_iff.1 h
        have hlevels := (List.forall_mem_cons.1 hunfilled).2
        obtain ⟨f, hf, hcount⟩ := exists_saturate_of_inStep h
        obtain ⟨s', hs'⟩ := exists_settle hlevels (operands.drop 2) f
        refine Or.inl ⟨s', ?_, inStep_of_settle (List.concat_ne_nil _ _) hlevels hwaiting hcount hs'⟩
        simp only [accept, hf, hs']
    | _ => exact Or.inr ⟨_, rfl⟩

/-- **A token that is not refused keeps the stacks in step.** -/
theorem accept_staysInStep (h : InStep ts s) (t : Token) : StaysInStep (ts ++ [t]) (accept s t) := by
  cases t with
  | letter c => exact accept_letter_staysInStep h c
  | negation => exact openLevel_staysInStep (l := .negation .negation) h rfl rfl _
  | connective op => exact accept_connective_staysInStep h op
  | opening => exact openLevel_staysInStep (l := .blank) h trivial rfl _
  | closing => exact accept_closing_staysInStep h
  | foreign c => exact Or.inr ⟨_, rfl⟩

/-- **The stacks are in step after every sequence of tokens.** -/
theorem inStep_of_run (h : automaton.run ts = .ok s) : InStep ts s := by
  refine automaton.run_preserves (inStep_nil_iff.2 rfl) ?_ h
  intro ts s t s' hs haccept
  rcases accept_staysInStep hs t with ⟨s'', hs'', hnext⟩ | ⟨why, hwhy⟩
  · obtain rfl := Except.ok.inj (hs''.symm.trans haccept)
    exact hnext
  · exact nomatch hwhy.symm.trans haccept

-- Behind `-(A>` the bracket holds an operand, and the negation in front of it does not.
example : automaton.run [.negation, .opening, .letter 'A', .connective .implication] =
    .ok ⟨[.operator (.connective .implication), .negation .negation], [.letter 'A']⟩ := rfl

end Tokens

/-- No operand is missing where the reader needs one, and none is left over. -/
structure Supplied (s : State) : Prop where
  /-- One operand completes a negation that waits for it. -/
  fills {operation : Operation} (f : Formula) :
    .negation operation ∈ s.levels → ∃ g, operation.fillLeading f = .complete g
  /-- So an operand goes through the negations that wait for it. -/
  settles (f : Formula) : ∃ s', settle s.levels s.operands f = .ok s'
  /-- A bracket that is closed finds both operands, and its formula goes through the negations in front of it. -/
  closes {operation : Operation} {levels : List Level} :
    s.levels = .last operation :: levels →
      ∃ f operands s', operation.saturate s.operands = (some f, operands) ∧ settle levels operands f = .ok s'
  accepts (t : Token) : accept s t ≠ .error .incomplete
  /-- At the end of the line there is no operand but the formula. -/
  ends {found : Option Formula} : finish s = some found → s.operands = found.toList

theorem supplied_of_inStep {ts : List Token} {s : State} (h : InStep ts s) : Supplied s where
  fills {operation} f hmem := by
    obtain rfl : operation = .negation := h.unfilled _ hmem
    exact ⟨.negation f, rfl⟩
  settles := exists_settle h.unfilled s.operands
  closes {operation levels} hlevels := by
    obtain ⟨levels', operands⟩ := s
    obtain rfl : levels' = .last operation :: levels := hlevels
    obtain ⟨f, hf, -⟩ := exists_saturate_of_inStep h
    obtain ⟨s', hs'⟩ := exists_settle (List.forall_mem_cons.1 h.unfilled).2 (operands.drop 2) f
    exact ⟨f, _, s', hf, hs'⟩
  accepts t hincomplete := by
    rcases accept_staysInStep h t with ⟨s', hs', -⟩ | ⟨why, hwhy⟩
    · exact nomatch hs'.symm.trans hincomplete
    · exact nomatch hwhy.symm.trans hincomplete
  ends {found} hfound := by
    obtain ⟨levels, operands⟩ := s
    obtain ⟨rfl, rfl⟩ := (finish_eq_some_iff _).1 hfound
    have hcount := inStep_nil_iff.1 h
    match operands with
    | [] => rfl
    | [f] => rfl
    | f :: g :: operands => split at hcount <;> simp at hcount

end Bracketed

namespace ReversePolish

/-- No operand is missing where the reader needs one. -/
structure Supplied (stack : List Formula) : Prop where
  /-- An operator takes its operands from the stack, unless there are too few and it is redundant. -/
  applies (operation : Operation) :
    stack.length < operation.vacancies ∧ apply stack operation = .error (.refused .redundant) ∨
      ∃ f, operation.saturate stack = (some f, stack.drop operation.vacancies) ∧
        apply stack operation = .ok (f :: stack.drop operation.vacancies)
  accepts (t : Token) : accept stack t ≠ .error .incomplete

theorem supplied (stack : List Formula) : Supplied stack where
  applies operation := by
    by_cases hfew : stack.length < operation.vacancies
    · have htake : (stack.take operation.vacancies).length < operation.vacancies := by
        rw [List.take_of_length_le (Nat.le_of_lt hfew)]
        exact hfew
      exact Or.inl ⟨hfew, if_pos htake⟩
    · rw [Nat.not_lt] at hfew
      obtain ⟨f, hf⟩ := Operation.exists_saturate hfew
      refine Or.inr ⟨f, hf, ?_⟩
      rw [apply, List.length_take_of_le hfew, if_neg (Nat.lt_irrefl _), hf]
  accepts t hincomplete := by
    obtain ⟨why, hwhy, -⟩ := refused_of_accept hincomplete
    cases hwhy

end ReversePolish

end Line

open Line

/-- **No operand is ever missing.** Whatever the tokens are, between bracketed operands the stacks are in step: there are as
many operands as the open levels hold, or one where no level is open behind a token, and every level has an operation
without operands. So neither there nor before an operator, whatever is on its stack, does the reader find too few
operands, and none is left over. A line is incomplete nowhere but at its end. -/
theorem operands_never_missing :
    (∀ ts s, Bracketed.automaton.run ts = .ok s → Bracketed.InStep ts s ∧ Bracketed.Supplied s) ∧
      (∀ stack, ReversePolish.Supplied stack) ∧
      ∀ source rest,
        (Notation.bracketed.readLine source = (.error .incomplete, rest) ↔
            Bracketed.automaton.EndsWithin source rest) ∧
          (Notation.reversePolish.readLine source = (.error .incomplete, rest) ↔
            ReversePolish.automaton.EndsWithin source rest) := by
  refine ⟨?_, ReversePolish.supplied, ?_⟩
  · intro ts s hs
    have hstep := Bracketed.inStep_of_run hs
    exact ⟨hstep, Bracketed.supplied_of_inStep hstep⟩
  · intro source rest
    exact ⟨Bracketed.recognizes.readLine_eq_incomplete_iff, ReversePolish.recognizes.readLine_eq_incomplete_iff⟩

end PropositionalCalculus
