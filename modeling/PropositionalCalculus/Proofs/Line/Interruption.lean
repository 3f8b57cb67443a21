import PropositionalCalculus.Proofs.Line.Taking

/-!
# When a failed read interrupts a line

A `Reader` stands at an offset of its input, and its reads at one offset fail as long as failures are left. What its
reads give one after the other is its source (`Reader.source_fails`, `Reader.source_byte`, `Reader.source_ended`).

An attempt to read a line is interrupted exactly when it has to read where reads fail, be it in the middle of the line,
while the rest of a malformed line is skipped, or at the end of the input. Then it uses up one failure and stays at
that offset. Otherwise it does what it would do without failures (`Reader.failed_read_interrupts`).
-/

set_option autoImplicit false

namespace PropositionalCalculus

open Line

/-- A byte comes before the failures at a later offset. -/
theorem Source.withFaults_cons (kind : ReadFault) (times offset : Nat) (b : UInt8) (bytes : List UInt8) :
    withFaults kind times (offset + 1) (b :: bytes) = .byte b (withFaults kind times offset bytes) := by
  rw [withFaults, withFaults, List.length_cons]
  by_cases h : offset ≤ bytes.length
  · rw [if_pos h, if_pos (Nat.succ_le_succ h)]
    rfl
  · rw [if_neg h, if_neg (mt Nat.le_of_succ_le_succ h)]
    rfl

/-- Without failures there are only the bytes. -/
theorem Source.withFaults_zero (kind : ReadFault) (offset : Nat) (bytes : List UInt8) :
    withFaults kind 0 offset bytes = ofBytes bytes := by
  rw [withFaults]
  split
  · rw [faults, ← ofBytes_append, List.take_append_drop]
  · rfl

@[simp] theorem Source.bytes_faults (kind : ReadFault) (times : Nat) (rest : Source) :
    (faults kind times rest).bytes = rest.bytes := by
  cases times <;> rfl

@[simp] theorem Source.bytes_ofBytes (bytes : List UInt8) : (ofBytes bytes).bytes = bytes := by
  rw [ofBytes, bytes_append, Source.bytes, List.append_nil]

@[simp] theorem Source.bytes_withFaults (kind : ReadFault) (times offset : Nat) (bytes : List UInt8) :
    (withFaults kind times offset bytes).bytes = bytes := by
  rw [withFaults]
  split
  · rw [bytes_append, bytes_faults, bytes_ofBytes, List.take_append_drop]
  · exact bytes_ofBytes bytes

/-- A reader of bytes. -/
structure Reader where
  /-- The bytes that have been read. -/
  before : List UInt8
  /-- The bytes that are still to be read. -/
  ahead : List UInt8
  /-- Why reads fail. -/
  kind : ReadFault
  /-- The offset at which reads fail. -/
  failsAt : Nat
  /-- How many reads are still to fail. -/
  failures : Nat

namespace Reader

/-- All bytes, whether they have been read or not. -/
def input (r : Reader) : List UInt8 :=
  r.before ++ r.ahead

/-- The number of bytes that have been read. -/
def offset (r : Reader) : Nat :=
  r.before.length

/-- What the reads give from here on. -/
def source (r : Reader) : Source :=
  if r.offset ≤ r.failsAt then .withFaults r.kind r.failures (r.failsAt - r.offset) r.ahead
  else .ofBytes r.ahead

/-- The same reader without failures. -/
def reliable (r : Reader) : Reader :=
  { r with failures := 0 }

/-- The offset behind the next line feed, or behind all bytes when there is none. -/
def lineEnd (r : Reader) : Nat :=
  r.offset + (firstLine r.ahead).length

/-- A read fails that has to be made for the next line: of one of its bytes, or of the end behind them when they have
no line feed. -/
def Interrupted (r : Reader) : Prop :=
  0 < r.failures ∧ r.offset ≤ r.failsAt ∧
    (r.failsAt < r.lineEnd ∨ lineFeed ∉ r.ahead ∧ r.failsAt = r.input.length)

/-- Behind the next line. -/
def afterLine (r : Reader) : Reader :=
  { r with before := r.before ++ firstLine r.ahead, ahead := otherLines r.ahead }

/-- Where reads fail, behind one failed read. -/
def afterFailure (r : Reader) : Reader :=
  { r with
    before := r.before ++ r.ahead.take (r.failsAt - r.offset)
    ahead := r.ahead.drop (r.failsAt - r.offset)
    failures := r.failures - 1 }

variable {r : Reader} {b : UInt8} {rest : List UInt8}

/-! ## Single reads -/

/-- Behind one byte. -/
def next (r : Reader) (b : UInt8) (rest : List UInt8) : Reader :=
  { r with before := r.before ++ [b], ahead := rest }

/-- The next read fails. -/
def FailsNow (r : Reader) : Prop :=
  r.failsAt = r.offset ∧ 0 < r.failures

theorem offset_next : (r.next b rest).offset = r.offset + 1 :=
  List.length_append

/-- Behind the offset at which reads fail, and without failures, there are only bytes. -/
theorem source_of_past (h : r.failsAt < r.offset ∨ r.failures = 0) : r.source = .ofBytes r.ahead := by
  rw [source]
  split
  · rename_i hle
    have hnone : r.failures = 0 := h.resolve_left (Nat.not_lt_of_le hle)
    rw [hnone, Source.withFaults_zero]
  · rfl

/-- A read that does not fail is before the offset at which reads fail, behind it, or without failures. -/
theorem lt_or_past (h : ¬ r.FailsNow) : r.offset < r.failsAt ∨ r.failsAt < r.offset ∨ r.failures = 0 := by
  rw [FailsNow] at h
  omega

theorem source_here (h : r.failsAt = r.offset) : r.source = .faults r.kind r.failures (.ofBytes r.ahead) := by
  rw [source, if_pos (Nat.le_of_eq h.symm), h, Nat.sub_self, Source.withFaults, if_pos (Nat.zero_le _)]
  rfl

/-- The same reader with one failure less. -/
def failed (r : Reader) : Reader :=
  { r with failures := r.failures - 1 }

/-- A reader that has read nothing yet gives the bytes with the failures at their offset. -/
theorem source_start (h : r.before = []) : r.source = .withFaults r.kind r.failures r.failsAt r.ahead := by
  have hzero : r.offset = 0 := by
    rw [offset, h]
    rfl
  rw [source, if_pos (hzero ▸ Nat.zero_le _), hzero, Nat.sub_zero]

/-- **A failed read** uses up a failure and no byte. -/
theorem source_fails (h : r.FailsNow) :
    ∃ again left, r.source = .fault r.kind again left ∧ left.afterFault r.kind again = r.failed.source := by
  obtain ⟨hoffset, hleft⟩ := h
  obtain ⟨again, hagain⟩ := Nat.exists_eq_add_one_of_ne_zero (Nat.ne_of_gt hleft)
  refine ⟨again, .ofBytes r.ahead, ?_, ?_⟩
  · rw [source_here hoffset, hagain]
    rfl
  · rw [source_here (r := r.failed) hoffset, failed, hagain]
    cases again <;> rfl

/-- **A read that does not fail** takes the next byte. -/
theorem source_byte (h : ¬ r.FailsNow) (hahead : r.ahead = b :: rest) :
    r.source = .byte b (r.next b rest).source := by
  rcases lt_or_past h with hlt | hpast
  · have hnext : (r.next b rest).offset ≤ (r.next b rest).failsAt := by
      rw [offset_next]
      exact hlt
    have hbehind : r.failsAt - r.offset = r.failsAt - (r.next b rest).offset + 1 := by
      rw [offset_next]
      omega
    rw [source, source, if_pos (Nat.le_of_lt hlt), if_pos hnext, hahead, hbehind]
    exact Source.withFaults_cons _ _ _ b rest
  · have hpast' : (r.next b rest).failsAt < (r.next b rest).offset ∨ (r.next b rest).failures = 0 := by
      rw [offset_next]
      exact hpast.imp_left Nat.lt_succ_of_lt
    rw [source_of_past hpast, source_of_past hpast', hahead]
    rfl

/-- Behind the last byte a read that does not fail meets the end. -/
theorem source_ended (h : ¬ r.FailsNow) (hahead : r.ahead = []) : r.source = .ended := by
  rcases lt_or_past h with hlt | hpast
  · rw [source, if_pos (Nat.le_of_lt hlt), hahead, Source.withFaults, if_neg]
    · rfl
    · rw [List.length_nil]
      omega
  · rw [source_of_past hpast, hahead]
    rfl

/-- The bytes of the source are those that are still to be read. -/
theorem bytes_source (r : Reader) : r.source.bytes = r.ahead := by
  rw [source]
  split
  · exact Source.bytes_withFaults _ _ _ _
  · exact Source.bytes_ofBytes _

/-! ## Byte by byte through a line -/

theorem input_next (hahead : r.ahead = b :: rest) : (r.next b rest).input = r.input := by
  rw [input, input, hahead, next, List.append_assoc]
  rfl

theorem lineEnd_next (hb : b ≠ lineFeed) (hahead : r.ahead = b :: rest) :
    (r.next b rest).lineEnd = r.lineEnd := by
  have hlength : (firstLine r.ahead).length = (firstLine rest).length + 1 := by
    rw [hahead, firstLine_cons hb, List.length_cons]
  have hrest : (r.next b rest).ahead = rest := rfl
  rw [lineEnd, lineEnd, hlength, hrest, offset_next]
  omega

/-- A read that fails now interrupts the line. -/
theorem FailsNow.interrupted (h : r.FailsNow) : r.Interrupted := by
  obtain ⟨hoffset, hleft⟩ := h
  refine ⟨hleft, Nat.le_of_eq hoffset.symm, ?_⟩
  cases hahead : r.ahead with
  | nil =>
      refine Or.inr ⟨List.not_mem_nil, ?_⟩
      rw [hoffset, input, hahead, List.append_nil]
      rfl
  | cons b rest =>
      have hpos : 0 < (firstLine r.ahead).length := by
        rw [hahead]
        exact length_firstLine_pos b rest
      refine Or.inl ?_
      rw [hoffset, lineEnd]
      omega

/-- An interruption that is not now is still to come behind the next byte of the line. -/
theorem interrupted_next_iff (hnow : ¬ r.FailsNow) (hb : b ≠ lineFeed) (hahead : r.ahead = b :: rest) :
    (r.next b rest).Interrupted ↔ r.Interrupted := by
  have hmem : lineFeed ∉ (r.next b rest).ahead ↔ lineFeed ∉ r.ahead := by
    rw [hahead, List.mem_cons, or_iff_right (Ne.symm hb)]
    rfl
  rw [Interrupted, Interrupted, lineEnd_next hb hahead, input_next hahead, offset_next, hmem]
  rw [FailsNow] at hnow
  constructor
  · rintro ⟨hleft, hle, hwhere⟩
    exact ⟨hleft, Nat.le_of_succ_le hle, hwhere⟩
  · rintro ⟨hleft, hle, hwhere⟩
    refine ⟨hleft, ?_, hwhere⟩
    change r.offset + 1 ≤ r.failsAt
    change 0 < r.failures at hleft
    change r.offset ≤ r.failsAt at hle
    omega

/-- The line feed is the last byte of the line, so an interruption is now. -/
theorem Interrupted.ne_lineFeed (h : r.Interrupted) (hnow : ¬ r.FailsNow) (hahead : r.ahead = b :: rest) :
    b ≠ lineFeed := by
  rintro rfl
  obtain ⟨hleft, hle, hin | ⟨hnone, -⟩⟩ := h
  · rw [lineEnd, hahead, firstLine_lineFeed] at hin
    exact hnow ⟨Nat.le_antisymm (Nat.le_of_lt_succ hin) hle, hleft⟩
  · rw [hahead] at hnone
    exact hnone List.mem_cons_self

/-- At the end of the input there is one more read, so an interruption is now. -/
theorem Interrupted.ahead_ne_nil (h : r.Interrupted) (hnow : ¬ r.FailsNow) : r.ahead ≠ [] := by
  intro hahead
  obtain ⟨hleft, hle, hin | ⟨-, hend⟩⟩ := h
  · rw [lineEnd, hahead] at hin
    exact absurd hin (Nat.not_lt_of_le hle)
  · rw [input, hahead, List.append_nil] at hend
    exact hnow ⟨hend, hleft⟩

theorem Interrupted.offset_lt (h : r.Interrupted) (hnow : ¬ r.FailsNow) : r.offset < r.failsAt := by
  obtain ⟨hleft, hle, -⟩ := h
  refine Nat.lt_of_le_of_ne hle ?_
  intro hhere
  exact hnow ⟨hhere.symm, hleft⟩

theorem afterFailure_of_failsNow (h : r.FailsNow) : r.afterFailure = r.failed := by
  have hnone : r.failsAt - r.offset = 0 := by rw [h.1, Nat.sub_self]
  rw [afterFailure, hnone, List.take_zero, List.append_nil, List.drop_zero]
  rfl

theorem afterFailure_next (hlt : r.offset < r.failsAt) (hahead : r.ahead = b :: rest) :
    (r.next b rest).afterFailure = r.afterFailure := by
  have hbehind : r.failsAt - r.offset = r.failsAt - (r.next b rest).offset + 1 := by
    rw [offset_next]
    omega
  rw [afterFailure, afterFailure, hahead, hbehind, List.take_succ_cons, List.drop_succ_cons]
  simp [next]

theorem afterLine_next (hb : b ≠ lineFeed) (hahead : r.ahead = b :: rest) :
    (r.next b rest).afterLine = r.afterLine := by
  rw [afterLine, afterLine, hahead, firstLine_cons hb, otherLines_cons hb]
  simp [next]

/-- A read that fails now ends the attempt. -/
theorem source_of_failsNow (h : r.FailsNow) :
    r.source.interruption? = some r.kind ∧ r.source.afterLine = r.afterFailure.source := by
  obtain ⟨again, left, hsource, hleft⟩ := source_fails h
  rw [hsource, afterFailure_of_failsNow h, ← hleft]
  exact ⟨rfl, rfl⟩

/-- **An interrupted line** is left where reads fail. -/
theorem source_of_interrupted (h : r.Interrupted) :
    r.source.interruption? = some r.kind ∧ r.source.afterLine = r.afterFailure.source := by
  -- The induction is on the bytes ahead: the failure is met at once or behind the next byte of the same line.
  induction hahead : r.ahead generalizing r with
  | nil =>
      apply source_of_failsNow
      by_contra hnow
      exact h.ahead_ne_nil hnow hahead
  | cons b rest ih =>
      by_cases hnow : r.FailsNow
      · exact source_of_failsNow hnow
      · have hb := h.ne_lineFeed hnow hahead
        have hlt := h.offset_lt hnow
        rw [source_byte hnow hahead, Source.interruption?, Source.afterLine, if_neg hb, if_neg hb,
          ← afterFailure_next hlt hahead]
        exact ih ((interrupted_next_iff hnow hb hahead).2 h) rfl

/-- **A line that is not interrupted** is read to its end. -/
theorem source_of_not_interrupted (h : ¬ r.Interrupted) :
    r.source.interruption? = none ∧ r.source.afterLine = r.afterLine.source := by
  -- Behind a byte that does not end the line there is no interruption either.
  induction hahead : r.ahead generalizing r with
  | nil =>
      have hnow : ¬ r.FailsNow := mt FailsNow.interrupted h
      have hstays : r.afterLine = r := by
        rw [afterLine, hahead, firstLine_nil, otherLines_nil, List.append_nil, ← hahead]
      rw [hstays, source_ended hnow hahead]
      exact ⟨rfl, rfl⟩
  | cons b rest ih =>
      have hnow : ¬ r.FailsNow := mt FailsNow.interrupted h
      rw [source_byte hnow hahead, Source.interruption?, Source.afterLine]
      by_cases hb : b = lineFeed
      · subst hb
        have hline : r.afterLine = r.next lineFeed rest := by
          rw [afterLine, hahead, firstLine_lineFeed, otherLines_lineFeed]
          rfl
        rw [if_pos rfl, if_pos rfl, hline]
        exact ⟨rfl, rfl⟩
      · rw [if_neg hb, if_neg hb, ← afterLine_next hb hahead]
        exact ih (mt (interrupted_next_iff hnow hb hahead).1 h) rfl

/-! ## One attempt -/

/-- Without failures no line is interrupted. -/
theorem not_interrupted_reliable (r : Reader) : ¬ r.reliable.Interrupted := by
  rintro ⟨hleft, -⟩
  exact Nat.lt_irrefl 0 hleft

/-- Where reads fail is within the input when a line is interrupted there. -/
theorem Interrupted.failsAt_le (h : r.Interrupted) : r.failsAt - r.offset ≤ r.ahead.length := by
  obtain ⟨-, -, hin | ⟨-, hend⟩⟩ := h
  · have hline : (firstLine r.ahead).length + (otherLines r.ahead).length = r.ahead.length := by
      rw [← List.length_append, firstLine_append_otherLines]
    rw [lineEnd] at hin
    omega
  · rw [input, List.length_append] at hend
    rw [hend]
    exact Nat.le_of_eq (Nat.add_sub_cancel_left _ _)

theorem Interrupted.offset_afterFailure (h : r.Interrupted) : r.afterFailure.offset = r.failsAt := by
  have hlength : (r.ahead.take (r.failsAt - r.offset)).length = r.failsAt - r.offset :=
    List.length_take_of_le h.failsAt_le
  have hsum : r.afterFailure.offset = r.offset + (r.ahead.take (r.failsAt - r.offset)).length :=
    List.length_append
  rw [hsum, hlength]
  exact Nat.add_sub_cancel' h.2.1

theorem input_afterFailure (r : Reader) : r.afterFailure.input = r.input := by
  rw [input, afterFailure, List.append_assoc, List.take_append_drop]
  rfl

theorem input_afterLine (r : Reader) : r.afterLine.input = r.input := by
  rw [input, afterLine, List.append_assoc, firstLine_append_otherLines]
  rfl

/-- Without failures an attempt reads the line to its end. -/
theorem readLine_reliable (n : Notation) (r : Reader) :
    n.readLine r.reliable.source = ((n.readLine (.ofBytes r.ahead)).1, r.reliable.afterLine.source) := by
  obtain ⟨hnone, hleft⟩ := source_of_not_interrupted r.not_interrupted_reliable
  rw [n.readLine_eq, hnone, hleft, bytes_source]
  rfl

/-- **A failed read interrupts a line exactly when it has to be made for the line.** An attempt leaves a reader of the
same input. If the line is interrupted, the attempt gives the failed read, whatever the line holds, uses up this one
failure, and leaves the reader where reads fail. Otherwise it gives and leaves what it does without failures: it reads
the line to its end, and no failure is used. -/
theorem failed_read_interrupts (n : Notation) (r : Reader) :
    ∃ (outcome : Outcome) (r' : Reader), n.readLine r.source = (outcome, r'.source) ∧
      r'.input = r.input ∧ r'.kind = r.kind ∧ r'.failsAt = r.failsAt ∧
      (r.Interrupted →
        outcome = .error (.unreadable r.kind) ∧ r'.offset = r.failsAt ∧ r'.failures + 1 = r.failures) ∧
      (¬ r.Interrupted →
        n.readLine r.reliable.source = (outcome, r'.reliable.source) ∧ r'.offset = r.lineEnd ∧
          r'.failures = r.failures) := by
  by_cases h : r.Interrupted
  · obtain ⟨hkind, hleft⟩ := source_of_interrupted h
    refine ⟨.error (.unreadable r.kind), r.afterFailure, ?_, r.input_afterFailure, rfl, rfl, ?_, absurd h⟩
    · rw [n.readLine_eq, hkind, hleft]
      rfl
    · intro _
      exact ⟨rfl, h.offset_afterFailure, Nat.sub_add_cancel h.1⟩
  · obtain ⟨hnone, hleft⟩ := source_of_not_interrupted h
    refine ⟨(n.readLine (.ofBytes r.ahead)).1, r.afterLine, ?_, r.input_afterLine, rfl, rfl,
      fun h' => absurd h' h, ?_⟩
    · rw [n.readLine_eq, hnone, hleft, bytes_source]
      rfl
    · intro _
      exact ⟨r.readLine_reliable n, List.length_append, rfl⟩

-- A read that fails while the rest of a refused line is skipped takes the place of the refusal.
example :
    (Notation.bracketed.readLine (Reader.source ⟨[], [0x29, 0x41, lineFeed], .timedOut, 2, 1⟩)).1 =
      .error (.unreadable .timedOut) :=
  rfl

end Reader
end PropositionalCalculus
