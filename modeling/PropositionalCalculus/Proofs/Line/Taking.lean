import PropositionalCalculus.Proofs.Line.Boundary

/-!
# What reading takes from a source

`Source.Leaves` says which bytes reads take from a source and what they leave of it, failed reads among them or
not. On any source, even one that fails, an attempt to read a line stops in one of three places: behind a line
feed, where a read fails, or at the end of the input (`Notation.exists_stopsBehind`). Behind a failed read the next
attempt starts in the middle of a line.

Where it stops depends neither on the notation nor on what the line holds (`Source.afterLine`), for what is left of
a line behind a refused character is skipped. A read that fails on the way is the outcome, and otherwise the outcome
is the one that the bytes give without any failure (`Notation.readLine_eq`). So a formula is read only from bytes
without a failed read among them, up to a line feed (`Notation.exists_line_of_readLine`).
-/

set_option autoImplicit false

namespace PropositionalCalculus

open Line

/-- The bytes end with a line feed. -/
def Line.EndsLine (taken : List UInt8) : Prop :=
  ∃ w, taken = w ++ [lineFeed]

theorem Line.EndsLine.cons {taken : List UInt8} (b : UInt8) (h : EndsLine taken) : EndsLine (b :: taken) := by
  obtain ⟨w, rfl⟩ := h
  exact ⟨b :: w, rfl⟩

theorem Line.EndsLine.append {taken : List UInt8} (before : List UInt8) (h : EndsLine taken) :
    EndsLine (before ++ taken) := by
  obtain ⟨w, rfl⟩ := h
  exact ⟨before ++ w, (List.append_assoc _ _ _).symm⟩

namespace Source

/-- The bytes that a source gives, failed reads left out. -/
def bytes : Source → List UInt8
  | ended => []
  | failing _ => []
  | byte b rest => b :: rest.bytes
  | fault _ _ rest => rest.bytes

/-- From some point on, every read of the source fails. -/
def FailsForEver : Source → Prop
  | ended => False
  | failing _ => True
  | byte _ rest => rest.FailsForEver
  | fault _ _ rest => rest.FailsForEver

/-- Whether a source fails for ever can be seen in it. -/
instance decidableFailsForEver : DecidablePred FailsForEver
  | ended => inferInstanceAs (Decidable False)
  | failing _ => inferInstanceAs (Decidable True)
  | byte _ rest => decidableFailsForEver rest
  | fault _ _ rest => decidableFailsForEver rest

/-- The next read of the source fails. -/
def Fails : Source → Prop
  | ended => False
  | failing _ => True
  | byte _ _ => False
  | fault _ _ _ => True

/-- Reads that take these bytes, and failed reads among them, leave the rest of the source. -/
inductive Leaves : Source → List UInt8 → Source → Prop where
  | nothing (source : Source) : Leaves source [] source
  | byte {b : UInt8} {rest left : Source} {taken : List UInt8} :
      Leaves rest taken left → Leaves (.byte b rest) (b :: taken) left
  | fault {kind : ReadFault} {again : Nat} {rest left : Source} {taken : List UInt8} :
      Leaves (rest.afterFault kind again) taken left → Leaves (.fault kind again rest) taken left

/-- A read fails directly behind these bytes. -/
def FailsBehind (source : Source) (taken : List UInt8) : Prop :=
  ∃ left, source.Leaves taken left ∧ left.Fails

/-- Reading takes these bytes and stops there: behind a line feed, where a read fails, or at the end. -/
def StopsBehind (source : Source) (taken : List UInt8) (left : Source) : Prop :=
  source.Leaves taken left ∧ (EndsLine taken ∨ source.FailsBehind taken ∨ left = .ended)

variable {source middle left : Source} {taken more : List UInt8}

@[simp] theorem bytes_afterFault (kind : ReadFault) (again : Nat) (rest : Source) :
    (rest.afterFault kind again).bytes = rest.bytes := by
  cases again <;> rfl

@[simp] theorem bytes_append (w : List UInt8) (rest : Source) : (append w rest).bytes = w ++ rest.bytes := by
  induction w with
  | nil => rfl
  | cons b w ih => rw [append_cons, bytes, ih, List.cons_append]

@[simp] theorem failsForEver_afterFault (kind : ReadFault) (again : Nat) (rest : Source) :
    (rest.afterFault kind again).FailsForEver ↔ rest.FailsForEver := by
  cases again <;> exact Iff.rfl

/-- Bytes alone do not fail for ever. -/
theorem not_failsForEver_ofBytes (w : List UInt8) : ¬ (ofBytes w).FailsForEver := by
  induction w with
  | nil => exact id
  | cons b w ih => exact ih

namespace Leaves

theorem trans (h : source.Leaves taken middle) (h' : middle.Leaves more left) :
    source.Leaves (taken ++ more) left := by
  induction h with
  | nothing => exact h'
  | byte _ ih => exact .byte (ih h')
  | fault _ ih => exact .fault (ih h')

/-- **No byte is lost and none is read twice.** -/
theorem bytes_eq (h : source.Leaves taken left) : source.bytes = taken ++ left.bytes := by
  induction h with
  | nothing => rfl
  | byte _ ih => rw [Source.bytes, ih, List.cons_append]
  | fault _ ih => rw [Source.bytes, ← ih, bytes_afterFault]

/-- What is left fails for ever if the source does. -/
theorem failsForEver_iff (h : source.Leaves taken left) : left.FailsForEver ↔ source.FailsForEver := by
  induction h with
  | nothing => exact Iff.rfl
  | byte _ ih => exact ih
  | fault _ ih => exact ih.trans (failsForEver_afterFault _ _ _)

/-- A read that fails behind some bytes of what is left fails behind all bytes taken so far. -/
theorem failsBehind (h : source.Leaves taken middle) (hfails : middle.FailsBehind more) :
    source.FailsBehind (taken ++ more) := by
  obtain ⟨left, hleft, hnext⟩ := hfails
  exact ⟨left, h.trans hleft, hnext⟩

end Leaves

/-- A stop may be behind one more byte. -/
theorem StopsBehind.byte {b : UInt8} (h : source.StopsBehind taken left) :
    (Source.byte b source).StopsBehind (b :: taken) left := by
  obtain ⟨hleaves, hends | hfails | hended⟩ := h
  · exact ⟨.byte hleaves, Or.inl (hends.cons b)⟩
  · exact ⟨.byte hleaves, Or.inr (Or.inl (Leaves.failsBehind (.byte (.nothing source)) hfails))⟩
  · exact ⟨.byte hleaves, Or.inr (Or.inr hended)⟩

theorem stopsBehind_lineFeed (rest : Source) : (Source.byte lineFeed rest).StopsBehind [lineFeed] rest :=
  ⟨.byte (.nothing rest), Or.inl ⟨[], rfl⟩⟩

theorem stopsBehind_ended : ended.StopsBehind [] ended :=
  ⟨.nothing ended, Or.inr (Or.inr rfl)⟩

theorem stopsBehind_failing (fault : ReadFault) : (failing fault).StopsBehind [] (failing fault) :=
  ⟨.nothing _, Or.inr (Or.inl ⟨_, .nothing _, trivial⟩)⟩

theorem stopsBehind_fault (kind : ReadFault) (again : Nat) (rest : Source) :
    (fault kind again rest).StopsBehind [] (rest.afterFault kind again) :=
  ⟨.fault (.nothing _), Or.inr (Or.inl ⟨_, .nothing _, trivial⟩)⟩

end Source

/-! ## Behind a line -/

namespace Source

/-- What is left behind the next line: behind its line feed, behind the first failed read, or at the end. -/
def afterLine : Source → Source
  | ended => ended
  | failing kind => failing kind
  | fault kind again rest => rest.afterFault kind again
  | byte b rest => if b = lineFeed then rest else rest.afterLine

/-- The fault of the read that fails before the next line is over, if there is one. -/
def interruption? : Source → Option ReadFault
  | ended => none
  | failing kind => some kind
  | fault kind _ _ => some kind
  | byte b rest => if b = lineFeed then none else rest.interruption?

/-- Bytes without a line feed do not end a line. -/
theorem afterLine_append {w : List UInt8} (hw : lineFeed ∉ w) (rest : Source) :
    (append w rest).afterLine = rest.afterLine := by
  induction w with
  | nil => rfl
  | cons b w ih =>
      rw [List.mem_cons, not_or] at hw
      rw [append_cons, afterLine, if_neg (Ne.symm hw.1), ih hw.2]

theorem interruption?_append {w : List UInt8} (hw : lineFeed ∉ w) (rest : Source) :
    (append w rest).interruption? = rest.interruption? := by
  induction w with
  | nil => rfl
  | cons b w ih =>
      rw [List.mem_cons, not_or] at hw
      rw [append_cons, interruption?, if_neg (Ne.symm hw.1), ih hw.2]

/-- **A line is made of bytes without a line feed**, and it stops at the end, at a failed read or at a line feed. -/
theorem exists_line (source : Source) :
    ∃ w tail, lineFeed ∉ w ∧ source = append w tail ∧
      (tail = ended ∨ tail.Fails ∨ ∃ rest, tail = byte lineFeed rest) := by
  induction source with
  | ended => exact ⟨[], ended, List.not_mem_nil, rfl, Or.inl rfl⟩
  | failing kind => exact ⟨[], failing kind, List.not_mem_nil, rfl, Or.inr (Or.inl trivial)⟩
  | fault kind again rest _ => exact ⟨[], fault kind again rest, List.not_mem_nil, rfl, Or.inr (Or.inl trivial)⟩
  | byte b rest ih =>
      by_cases hb : b = lineFeed
      · subst hb
        exact ⟨[], byte lineFeed rest, List.not_mem_nil, rfl, Or.inr (Or.inr ⟨rest, rfl⟩)⟩
      · obtain ⟨w, tail, hw, rfl, htail⟩ := ih
        refine ⟨b :: w, tail, ?_, rfl, htail⟩
        rw [List.mem_cons, not_or]
        exact ⟨Ne.symm hb, hw⟩

theorem exists_stopsBehind_afterLine (source : Source) : ∃ taken, source.StopsBehind taken source.afterLine := by
  induction source with
  | ended => exact ⟨[], stopsBehind_ended⟩
  | failing kind => exact ⟨[], stopsBehind_failing kind⟩
  | fault kind again rest _ => exact ⟨[], stopsBehind_fault kind again rest⟩
  | byte b rest ih =>
      rw [afterLine]
      split
      · rename_i hb
        subst hb
        exact ⟨[lineFeed], stopsBehind_lineFeed rest⟩
      · obtain ⟨taken, hstops⟩ := ih
        exact ⟨b :: taken, hstops.byte⟩

end Source

namespace Line

/-- The outcome of an attempt that a failed read interrupts, if one does, and would else give another outcome. -/
def Outcome.interrupted (outcome : Outcome) : Option ReadFault → Outcome
  | none => outcome
  | some kind => .error (.unreadable kind)

/-- **A failed read is the outcome**, whatever the line holds before it. -/
theorem Automaton.Recognizes.readLine_fails {σ : Type} {m : Automaton σ} {n : Notation}
    {After : σ → List Char → Prop} (h : m.Recognizes n After) {w : List UInt8} (hw : lineFeed ∉ w)
    {tail : Source} (hfails : tail.Fails) (outcome : Outcome) :
    m.readLine (.append w tail) = (outcome.interrupted tail.interruption?, tail.afterLine) := by
  rcases h.feed_cases (characters w) with ⟨s, hs⟩ | ⟨before, c, after, s, why, hchars, hbefore, hc⟩
  · rw [Automaton.readLine, m.scan_append hw hs]
    cases tail with
    | ended => exact hfails.elim
    | failing kind => rfl
    | fault kind again rest => rfl
    | byte b rest => exact hfails.elim
  · -- The read fails while the rest of the line is skipped.
    rw [Automaton.readLine, m.scan_refused hw hchars hbefore hc]
    cases tail with
    | ended => exact hfails.elim
    | failing kind => rfl
    | fault kind again rest => rfl
    | byte b rest => exact hfails.elim

end Line

namespace Notation

variable {n : Notation} {f : Formula}

/-- **What an attempt gives and leaves**: the outcome of the bytes, unless a read fails before the line is over, and
what is left behind the line or the failed read. Neither of the two depends on what the line holds. -/
theorem readLine_eq (n : Notation) (source : Source) :
    n.readLine source =
      ((n.readLine (.ofBytes source.bytes)).1.interrupted source.interruption?, source.afterLine) := by
  obtain ⟨σ, m, After, hread, hm⟩ := n.exists_recognizes
  obtain ⟨w, tail, hw, rfl, rfl | hfails | ⟨rest, rfl⟩⟩ := source.exists_line
  · obtain ⟨outcome, -, hline⟩ := hm.exists_readLine_ended hw
    rw [Source.interruption?_append hw, Source.afterLine_append hw, Source.bytes_append, Source.bytes,
      List.append_nil, Source.ofBytes, hread, hline]
    rfl
  · rw [Source.interruption?_append hw, Source.afterLine_append hw, hread]
    exact hm.readLine_fails hw hfails _
  · obtain ⟨outcome, -, hline⟩ := hm.exists_readLine_terminated hw
    rw [Source.interruption?_append hw, Source.afterLine_append hw, Source.bytes_append, Source.bytes,
      Source.ofBytes_append, hread, hline rest, Source.ofBytes, Source.append_cons, hline]
    rfl

/-- **An attempt to read a line stops behind a line feed, where a read fails, or at the end.** -/
theorem exists_stopsBehind (n : Notation) (source : Source) :
    ∃ taken, source.StopsBehind taken (n.readLine source).2 := by
  rw [readLine_eq]
  exact source.exists_stopsBehind_afterLine

/-- **A formula is read from bytes up to a line feed**, and these bytes give it on their own. -/
theorem exists_line_of_readLine {source : Source} (h : (n.readLine source).1 = .ok (some f)) :
    ∃ w, lineFeed ∉ w ∧ source = Source.append w (.byte lineFeed (n.readLine source).2) ∧
      (n.readLine (.ofBytes (w ++ [lineFeed]))).1 = .ok (some f) := by
  obtain ⟨σ, m, After, hread, hm⟩ := n.exists_recognizes
  rw [hread] at h ⊢
  obtain ⟨w, hw, hsource, hf, hsymbols⟩ := hm.exists_line_of_readLine (Prod.ext h rfl)
  refine ⟨w, hw, hsource, ?_⟩
  rw [Source.ofBytes_append]
  exact congrArg Prod.fst (hm.readLine_formula hf hw hsymbols .ended)

end Notation

end PropositionalCalculus
