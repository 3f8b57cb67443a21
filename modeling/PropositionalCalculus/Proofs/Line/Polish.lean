import PropositionalCalculus.Line.Polish
import PropositionalCalculus.Proofs.Line.Recognition
import PropositionalCalculus.Proofs.Line.Token

/-!
# The reader of lines with every operator before its operands

The operators that wait for operands spell out what has been read: `Waiting ops cs` says that the
characters `cs` leave exactly the operators `ops` waiting. Every operand that is given to them either
completes the formula of the line or leaves operators waiting again (`after_settle`), and any waiting
operators can be satisfied (`waiting_opens`). So the automaton recognizes its notation (`recognizes`).
-/

set_option autoImplicit false

namespace PropositionalCalculus.Line.Polish

open Formula

/-- The characters read so far leave these operators waiting, the last one first. -/
inductive Waiting : List Operation → List Char → Prop where
  | nil : Waiting [] []
  | negation {ops : List Operation} {cs : List Char} :
      Waiting ops cs → Waiting (.negation :: ops) (cs ++ [Negation.sign])
  | connective {ops : List Operation} {cs : List Char} (op : Connective) :
      Waiting ops cs → Waiting (.connective op :: ops) (cs ++ [op.sign])
  | leftFilled {ops : List Operation} {cs : List Char} {left : Formula} (op : Connective) :
      Waiting ops cs → left.Plain →
        Waiting (.leftFilled left op :: ops) (cs ++ op.sign :: left.symbols .polish)

/-- The characters that lead to a state. -/
inductive After : State → List Char → Prop where
  | waiting {ops : List Operation} {cs : List Char} : Waiting ops cs → After ⟨ops, none⟩ cs
  | complete {f : Formula} : f.Plain → After ⟨[], some f⟩ (f.symbols .polish)

/-- Whatever waits can be given its operands, beginning with any plain formula. -/
theorem waiting_opens {ops : List Operation} {cs : List Char} (h : Waiting ops cs) {f : Formula}
    (hf : f.Plain) : Notation.polish.Opens (cs ++ f.symbols .polish) := by
  induction h generalizing f with
  | nil => exact Notation.polish.opens_symbols hf
  | @negation ops cs _ ih =>
      rw [List.append_assoc]
      exact ih (f := .negation f) hf
  | @connective ops cs op _ ih =>
      -- Any letter does for the second operand.
      have hboth := ih (f := .compound op f (.letter 'A')) ⟨hf, plain_letter_A⟩
      refine hboth.shorten ⟨['A'], ?_⟩
      simp [symbols]
  | @leftFilled ops cs left op _ hleft ih =>
      rw [List.append_assoc]
      exact ih (f := .compound op left f) ⟨hleft, hf⟩

/-- An operand given to waiting operators is read together with what they were waiting for. -/
theorem after_settle {ops : List Operation} {cs : List Char} (h : Waiting ops cs) {f : Formula}
    (hf : f.Plain) : After (settle ops f) (cs ++ f.symbols .polish) := by
  induction h generalizing f with
  | nil => exact After.complete hf
  | @negation ops cs _ ih =>
      rw [List.append_assoc]
      exact ih (f := .negation f) hf
  | @connective ops cs op hops _ =>
      rw [List.append_assoc]
      exact After.waiting (Waiting.leftFilled op hops hf)
  | @leftFilled ops cs left op _ hleft ih =>
      rw [List.append_assoc]
      exact ih (f := .compound op left f) ⟨hleft, hf⟩

theorem not_isComplete (ops : List Operation) : State.isComplete ⟨ops, none⟩ = false :=
  Bool.and_false _

/-- The symbols of a formula have the effect of the formula as an operand. -/
theorem feed_symbols {f : Formula} (hf : f.Plain) (ops : List Operation) :
    automaton.feed ⟨ops, none⟩ (f.symbols .polish) = .ok (settle ops f) := by
  induction f generalizing ops with
  | letter c =>
      have hc : automaton.accept ⟨ops, none⟩ (Token.ofChar c) = .ok (settle ops (.letter c)) := by
        rw [Token.ofChar_letter hf]
        exact if_neg (by simp [not_isComplete])
      rw [symbols, automaton.feed_cons_of_ok hc, Automaton.feed_nil]
  | negation body ih =>
      have hsign : automaton.accept ⟨ops, none⟩ (Token.ofChar Negation.sign) =
          .ok ⟨.negation :: ops, none⟩ := by
        rw [Token.ofChar_negation]
        exact if_neg (by simp [not_isComplete])
      rw [symbols, automaton.feed_cons_of_ok hsign, ih hf]
      rfl
  | compound op left right ihl ihr =>
      have hsign : automaton.accept ⟨ops, none⟩ (Token.ofChar op.sign) =
          .ok ⟨.connective op :: ops, none⟩ := by
        rw [Token.ofChar_sign]
        exact if_neg (by simp [not_isComplete])
      have hleft : automaton.feed ⟨.connective op :: ops, none⟩ (left.symbols .polish) =
          .ok ⟨.leftFilled left op :: ops, none⟩ := ihl hf.1 _
      rw [symbols, automaton.feed_cons_of_ok hsign, automaton.feed_append_of_ok hleft, ihr hf.2]
      rfl

/-- Nothing is accepted behind a complete formula. -/
theorem accept_complete (f : Formula) (t : Token) :
    accept ⟨[], some f⟩ t =
      .error (.refused (if t matches .opening | .closing | .foreign _ then .illegal else .redundant)) := by
  cases t <;> rfl

theorem after_accept {s s' : State} {cs : List Char} {c : Char} (h : After s cs)
    (hc : accept s (Token.ofChar c) = .ok s') : After s' (cs ++ [c]) := by
  cases h with
  | complete hf =>
      -- Nothing is accepted here.
      rw [accept_complete] at hc
      simp at hc
  | @waiting ops cs hops =>
      cases ht : Token.ofChar c with
      | letter d =>
          rw [ht, accept, not_isComplete] at hc
          obtain rfl : settle ops (.letter d) = s' := Except.ok.inj hc
          rw [Token.eq_char ht]
          exact after_settle hops (Token.isPlainLetter_of_ofChar ht)
      | negation =>
          rw [ht, accept, not_isComplete] at hc
          obtain rfl := Except.ok.inj hc
          rw [Token.eq_char ht]
          exact After.waiting (Waiting.negation hops)
      | connective op =>
          rw [ht, accept, not_isComplete] at hc
          obtain rfl := Except.ok.inj hc
          rw [Token.eq_char ht]
          exact After.waiting (Waiting.connective op hops)
      | opening => simp [ht, accept] at hc
      | closing => simp [ht, accept] at hc
      | foreign d => simp [ht, accept] at hc

/-- A refused token is illegal exactly when the notation does not know it. -/
theorem refused_of_accept {s : State} {t : Token} {halt : Halt} (h : accept s t = .error halt) :
    ∃ why, halt = .refused why ∧ (why = .illegal ↔ ¬ t.KnownTo .polish) := by
  cases t with
  | opening => obtain rfl := Except.error.inj h; exact ⟨.illegal, rfl, by simp [Token.KnownTo]⟩
  | closing => obtain rfl := Except.error.inj h; exact ⟨.illegal, rfl, by simp [Token.KnownTo]⟩
  | foreign d => obtain rfl := Except.error.inj h; exact ⟨.illegal, rfl, by simp [Token.KnownTo]⟩
  | letter d =>
      rw [accept] at h
      split at h
      · obtain rfl := Except.error.inj h
        exact ⟨.redundant, rfl, by simp [Token.KnownTo]⟩
      · cases h
  | negation =>
      rw [accept] at h
      split at h
      · obtain rfl := Except.error.inj h
        exact ⟨.redundant, rfl, by simp [Token.KnownTo]⟩
      · cases h
  | connective op =>
      rw [accept] at h
      split at h
      · obtain rfl := Except.error.inj h
        exact ⟨.redundant, rfl, by simp [Token.KnownTo]⟩
      · cases h

/-- **The automaton reads the notation with every operator before its operands.** -/
theorem recognizes : automaton.Recognizes .polish After where
  start := After.waiting Waiting.nil
  step := after_accept
  blank := rfl
  reads {f} hf := ⟨⟨[], some f⟩, feed_symbols hf [], rfl⟩
  opens {s cs} h := by
    cases h with
    | waiting hops => exact (waiting_opens hops plain_letter_A).shorten (List.prefix_append _ _)
    | complete hf => exact Notation.polish.opens_symbols hf
  nothing {s cs} h hfinish := by
    cases h with
    | complete hf => simp [automaton, finish] at hfinish
    | waiting hops =>
        cases hops with
        | nil => rfl
        | _ => simp [automaton, finish] at hfinish
  found {s cs f} h hfinish := by
    cases h with
    | complete hf =>
        obtain rfl := Option.some.inj (Option.some.inj hfinish)
        exact ⟨hf, rfl⟩
    | waiting hops => cases hops <;> simp [automaton, finish] at hfinish
  refuses _ hc := by
    obtain ⟨why, hhalt, hwhy⟩ := refused_of_accept hc
    exact ⟨why, hhalt, by rw [hwhy, Token.uses_iff]⟩

end PropositionalCalculus.Line.Polish
