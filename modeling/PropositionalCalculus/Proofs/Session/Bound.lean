import PropositionalCalculus.Proofs.Line.Interruption
import PropositionalCalculus.Proofs.Session.Counting
import PropositionalCalculus.Proofs.Session.Termination

/-!
# How many lines a run can count

An attempt to read a line takes a line feed, uses up a failed read, or meets the end of the input
(`Source.spends_afterLine`). Line feeds and failed reads are limited, and behind the end an attempt gives nothing, so
only the last line that a run counts can lack both (`Notation.Counts.lineBound`). Every run of a procedure that counts
its lines therefore counts at most one line more than there are line feeds and failed reads
(`Session.lines_le_lineFeeds_add_failures`).
-/

set_option autoImplicit false

namespace PropositionalCalculus

open Line

/-! ## What there is to use up -/

namespace Source

/-- The line feeds that are still to be read. -/
def lineFeeds (source : Source) : Nat :=
  source.bytes.count lineFeed

/-- The reads that are still to fail, where the source does not fail for ever. -/
def failures : Source → Nat
  | ended => 0
  | failing _ => 0
  | byte _ rest => rest.failures
  | fault _ again rest => rest.failures + again + 1

/-- The end has been met, and without a line feed before it. -/
def MeetsEnd (source left : Source) : Prop :=
  source.lineFeeds = 0 ∧ left = .ended

/-- One line feed has been taken and no failed read used up. -/
def TakesLineFeed (source left : Source) : Prop :=
  source.lineFeeds = left.lineFeeds + 1 ∧ source.failures = left.failures

/-- One failed read has been used up and no line feed taken. -/
def UsesFailure (source left : Source) : Prop :=
  source.lineFeeds = left.lineFeeds ∧ source.failures = left.failures + 1

variable {source left : Source}

theorem lineFeeds_cons {b : UInt8} (hb : b ≠ lineFeed) (rest : Source) :
    (byte b rest).lineFeeds = rest.lineFeeds := by
  rw [lineFeeds, lineFeeds, bytes, List.count_cons_of_ne hb]

theorem lineFeeds_lineFeed (rest : Source) : (byte lineFeed rest).lineFeeds = rest.lineFeeds + 1 := by
  rw [lineFeeds, lineFeeds, bytes, List.count_cons_self]

theorem failures_afterFault (kind : ReadFault) (again : Nat) (rest : Source) :
    (rest.afterFault kind again).failures = rest.failures + again := by
  cases again <;> rfl

@[simp] theorem failures_append (w : List UInt8) (rest : Source) : (append w rest).failures = rest.failures := by
  induction w with
  | nil => rfl
  | cons b w ih => rw [append_cons, failures, ih]

@[simp] theorem failures_ofBytes (w : List UInt8) : (ofBytes w).failures = 0 :=
  failures_append w ended

theorem failures_withFaults_le (kind : ReadFault) (times offset : Nat) (w : List UInt8) :
    (withFaults kind times offset w).failures ≤ times := by
  rw [withFaults]
  split
  · rw [failures_append]
    cases times with
    | zero => simp [faults]
    | succ times => simp [faults, failures]
  · rw [failures_ofBytes]
    exact Nat.zero_le _

@[simp] theorem failsForEver_append (w : List UInt8) (rest : Source) :
    (append w rest).FailsForEver ↔ rest.FailsForEver := by
  induction w with
  | nil => exact Iff.rfl
  | cons b w ih => exact ih

/-- However often reads fail at one offset, they do not fail for ever. -/
theorem not_failsForEver_withFaults (kind : ReadFault) (times offset : Nat) (w : List UInt8) :
    ¬ (withFaults kind times offset w).FailsForEver := by
  rw [withFaults]
  split
  · rw [failsForEver_append]
    cases times <;> exact not_failsForEver_ofBytes _
  · exact not_failsForEver_ofBytes w

theorem not_failsForEver_afterLine (h : ¬ source.FailsForEver) : ¬ source.afterLine.FailsForEver := by
  obtain ⟨taken, hleaves, -⟩ := source.exists_stopsBehind_afterLine
  exact mt hleaves.failsForEver_iff.1 h

/-- **What a line uses up**: a line feed or a failed read, or it ends at the end of the input. -/
theorem spends_afterLine (h : ¬ source.FailsForEver) :
    source.TakesLineFeed source.afterLine ∨ source.UsesFailure source.afterLine ∨
      source.MeetsEnd source.afterLine := by
  induction source with
  | ended => exact Or.inr (Or.inr ⟨rfl, rfl⟩)
  | failing kind => exact absurd trivial h
  | fault kind again rest _ =>
      refine Or.inr (Or.inl ⟨?_, ?_⟩)
      · rw [afterLine, lineFeeds, lineFeeds, bytes_afterFault, bytes]
      · rw [afterLine, failures_afterFault, failures]
  | byte b rest ih =>
      by_cases hb : b = lineFeed
      · subst hb
        rw [afterLine, if_pos rfl]
        exact Or.inl ⟨lineFeeds_lineFeed rest, rfl⟩
      · rw [afterLine, if_neg hb, TakesLineFeed, UsesFailure, MeetsEnd, lineFeeds_cons hb]
        exact ih h

end Source

/-! ## Attempts that are counted -/

namespace Notation

/-- What is left behind the given number of attempts. -/
def leftAfter (n : Notation) : Nat → Source → Source
  | 0, source => source
  | count + 1, source => n.leftAfter count (n.readLine source).2

/-- The first attempts, the given number of them, all give a formula or an error. -/
def Counts (n : Notation) (source : Source) (count : Nat) : Prop :=
  ∀ k < count, ∃ line, (n.readLine (n.leftAfter k source)).1.line? = some line

/-- What the lines use up that a number of attempts count. -/
structure LineBound (n : Notation) (source : Source) (count : Nat) : Prop where
  /-- Only the last one can end at the end of the input. -/
  spends : ∀ k < count,
    (n.leftAfter k source).TakesLineFeed (n.leftAfter (k + 1) source) ∨
      (n.leftAfter k source).UsesFailure (n.leftAfter (k + 1) source) ∨
        (n.leftAfter k source).MeetsEnd (n.leftAfter (k + 1) source) ∧ k + 1 = count
  le : count ≤ source.lineFeeds + source.failures + 1

variable {n : Notation} {source : Source} {count : Nat}

theorem leftAfter_succ (n : Notation) (count : Nat) (source : Source) :
    n.leftAfter (count + 1) source = (n.readLine (n.leftAfter count source)).2 := by
  induction count generalizing source with
  | zero => rfl
  | succ count ih => exact ih (n.readLine source).2

/-- What is left behind some lines does not depend on the notation. -/
theorem leftAfter_succ_eq_afterLine (n : Notation) (count : Nat) (source : Source) :
    n.leftAfter (count + 1) source = (n.leftAfter count source).afterLine := by
  rw [leftAfter_succ, readLine_eq]

theorem not_failsForEver_leftAfter (h : ¬ source.FailsForEver) (count : Nat) :
    ¬ (n.leftAfter count source).FailsForEver := by
  induction count with
  | zero => exact h
  | succ count ih =>
      rw [leftAfter_succ_eq_afterLine]
      exact Source.not_failsForEver_afterLine ih

namespace Counts

/-- Behind the end of the input no attempt is counted. -/
theorem not_ended (h : n.Counts source count) {k : Nat} (hk : k < count) : n.leftAfter k source ≠ .ended := by
  intro hended
  obtain ⟨line, hline⟩ := h k hk
  rw [hended, readLine_ended] at hline
  exact nomatch hline

theorem spends (h : n.Counts source count) (hfinite : ¬ source.FailsForEver) {k : Nat} (hk : k < count) :
    (n.leftAfter k source).TakesLineFeed (n.leftAfter (k + 1) source) ∨
      (n.leftAfter k source).UsesFailure (n.leftAfter (k + 1) source) ∨
        (n.leftAfter k source).MeetsEnd (n.leftAfter (k + 1) source) ∧ k + 1 = count := by
  rw [leftAfter_succ_eq_afterLine]
  rcases Source.spends_afterLine (not_failsForEver_leftAfter (n := n) hfinite k) with htakes | huses | hmeets
  · exact Or.inl htakes
  · exact Or.inr (Or.inl huses)
  · refine Or.inr (Or.inr ⟨hmeets, ?_⟩)
    -- A further attempt would be one on a source that has ended.
    by_contra hlast
    apply h.not_ended (k := k + 1) (by omega)
    rw [leftAfter_succ_eq_afterLine]
    exact hmeets.2

/-- Each line before the last one uses up one line feed or one failed read. -/
theorem spent (h : n.Counts source count) (hfinite : ¬ source.FailsForEver) {k : Nat} (hk : k < count) :
    (n.leftAfter k source).lineFeeds + (n.leftAfter k source).failures + k =
      source.lineFeeds + source.failures := by
  induction k with
  | zero => rfl
  | succ k ih =>
      have hbefore := ih (Nat.lt_of_succ_lt hk)
      rcases h.spends hfinite (Nat.lt_of_succ_lt hk) with ⟨hfeeds, hfails⟩ | ⟨hfeeds, hfails⟩ | ⟨-, hlast⟩
      · omega
      · omega
      -- Behind this line another one is counted, so it is not the last.
      · exact absurd hlast (Nat.ne_of_lt hk)

/-- **What counted lines use up** bounds their number. -/
theorem lineBound (h : n.Counts source count) (hfinite : ¬ source.FailsForEver) : n.LineBound source count where
  spends _ hk := h.spends hfinite hk
  le := by
    cases count with
    | zero => exact Nat.zero_le _
    | succ last =>
        have hspent := h.spent hfinite (Nat.lt_succ_self last)
        omega

end Counts

end Notation

/-! ## Procedures that count their lines -/

namespace Procedure

variable {σ α : Type}

/-- The procedure counts each line once, whether it stops there or goes on, and the end not at all. -/
structure CountsLines (p : Procedure σ (Tally × α)) (tally : σ → Tally) : Prop where
  next {state state' : σ} {line : Except LineError Formula} {events : List Event} :
    p.onLine state line = (events, .next state') → (tally state').lines = (tally state).lines + 1
  stop {state : σ} {line : Except LineError Formula} {events : List Event} {result : Tally × α} :
    p.onLine state line = (events, .stop result) → result.1.lines = (tally state).lines + 1
  onEnd (state : σ) : (p.onEnd state).1.lines = (tally state).lines

/-- What is left by a run that has counted this many lines: what its last attempt leaves. That is the attempt that is
counted last, or one more, which gives nothing. -/
def LeavesBehind (n : Notation) (source : Source) (count : Nat) (left : Source) : Prop :=
  left = n.leftAfter count source ∨
    (n.readLine (n.leftAfter count source)).1 = .ok none ∧ left = n.leftAfter (count + 1) source

variable {p : Procedure σ (Tally × α)} {n : Notation} {tally : σ → Tally}

/-- **A run counts the attempts that it makes**, but not one that gives nothing. -/
theorem CountsLines.exists_counts (hp : p.CountsLines tally) {state : σ} {source : Source}
    {ending : Ending (Tally × α)} (h : p.Ends n state source ending) :
    ∃ count, ending.result.1.lines = (tally state).lines + count ∧ n.Counts source count ∧
      LeavesBehind n source count ending.source := by
  -- The attempts behind the first line are those of the run that goes on from there.
  induction h with
  | finished hline => exact ⟨0, hp.onEnd _, nofun, Or.inr ⟨line?_eq_none hline, rfl⟩⟩
  | stopped hline hturn =>
      refine ⟨1, hp.stop hturn, ?_, Or.inl rfl⟩
      intro k hk
      obtain rfl := Nat.lt_one_iff.1 hk
      exact ⟨_, hline⟩
  | next hline hturn _ ih =>
      obtain ⟨count, hlines, hcounts, hleft⟩ := ih
      refine ⟨count + 1, ?_, ?_, hleft⟩
      · rw [hlines, hp.next hturn, Nat.add_assoc, Nat.add_comm 1]
      · intro k hk
        cases k with
        | zero => exact ⟨_, hline⟩
        | succ k => exact hcounts k (Nat.lt_of_succ_lt_succ hk)

end Procedure

theorem survey_countsLines {accepted : Event → Bool} {inspect : Formula → Tally → Finding} (strict : Bool)
    (hinspect : Candid accepted inspect) : (survey strict inspect).CountsLines Prod.fst where
  next {state state' line events} hturn := by
    obtain ⟨event, -, honLine⟩ := survey_onLine strict hinspect state line
    have hstate := (Prod.mk.inj (honLine.symm.trans hturn)).2
    split at hstate
    · exact nomatch hstate
    · obtain rfl := Turn.next.inj hstate
      rfl
  stop {state line events result} hturn := by
    obtain ⟨event, -, honLine⟩ := survey_onLine strict hinspect state line
    have hresult := (Prod.mk.inj (honLine.symm.trans hturn)).2
    split at hresult
    · obtain rfl := Turn.stop.inj hresult
      rfl
    · exact nomatch hresult
  onEnd _ := rfl

namespace Session

variable {s : Session}

theorem proofProcedure_countsLines (s : Session) :
    s.proofProcedure.CountsLines Proving.State.tally where
  next {state state' line events} hturn := by
    rcases s.onLine_turns state line with
      ⟨f, -, -, hnext⟩ | ⟨f, reason, events', -, -, -, hnext⟩ | ⟨error, -, hstop⟩
    · obtain rfl := Turn.next_unique hnext hturn
      rfl
    · obtain rfl := Turn.next_unique hnext hturn
      exact Tally.lines_countStep _ reason
    · exact (Turn.not_next_and_stop hturn hstop).elim
  stop {state line events result} hturn := by
    rcases s.onLine_turns state line with
      ⟨f, -, -, hnext⟩ | ⟨f, reason, events', -, -, -, hnext⟩ | ⟨error, -, hstop⟩
    · exact (Turn.not_next_and_stop hnext hturn).elim
    · exact (Turn.not_next_and_stop hnext hturn).elim
    · obtain rfl := Turn.stop_unique hstop hturn
      rfl
  onEnd state := by
    rcases Proving.finish_cases s.settings.proofMode state with ⟨report, hfinish, -⟩ | hfinish
    · exact congrArg (·.1.lines) hfinish
    · exact congrArg (·.1.lines) hfinish

/-! ## Runs -/

/-- The lines that a run has counted are the attempts that it has made on a source, and their number is bounded by what
they use up. -/
structure BoundsLines {α : Type} (s : Session) (source : Source) (run : Run α) : Prop where
  counts : s.settings.reading.Counts source run.session.tally.lines
  leaves : Procedure.LeavesBehind s.settings.reading source run.session.tally.lines run.source
  bound : s.settings.reading.LineBound source run.session.tally.lines

/-- A run is bounded when its procedure counts its lines. -/
theorem boundsLines_of_ends {σ α : Type} {p : Procedure σ (Tally × α)} {tally : σ → Tally}
    (hp : p.CountsLines tally) {state : σ} (hstart : (tally state).lines = 0) {source : Source}
    (hfinite : ¬ source.FailsForEver) {ending : Ending (Tally × α)}
    (h : p.Ends s.settings.reading state source ending) : s.BoundsLines source (s.conclude ending) := by
  obtain ⟨count, hlines, hcounts, hleaves⟩ := hp.exists_counts h
  obtain rfl : ending.result.1.lines = count := by rw [hlines, hstart, Nat.zero_add]
  exact ⟨hcounts, hleaves, hcounts.lineBound hfinite⟩

/-- A survey ends on a source that does not fail for ever, and is bounded. -/
theorem exists_survey_boundsLines (s : Session) {accepted : Event → Bool}
    {inspect : Formula → Tally → Finding} (hinspect : Candid accepted inspect) {source : Source}
    (hfinite : ¬ source.FailsForEver) :
    ∃ run, ((survey s.settings.strict inspect).run s.settings.reading ({}, .success) source).map s.conclude =
      some run ∧ s.BoundsLines source run := by
  obtain ⟨ending, hrun⟩ := (survey s.settings.strict inspect).exists_run_of_comesToNothing ({}, .success)
    (Notation.comesToNothing_of_finite (n := s.settings.reading) source hfinite)
  have hconclude := congrArg (Option.map s.conclude) hrun
  obtain ⟨e, hends, hrun'⟩ := Procedure.exists_ends_of_conclude hconclude
  refine ⟨_, hconclude, ?_⟩
  rw [hrun']
  exact boundsLines_of_ends (survey_countsLines s.settings.strict hinspect) rfl hfinite hends

/-- **A run counts at most one line more than there are line feeds and failed reads.** The reads at one offset of the
input fail a number of times. Each run of the session, strict or not and in any notation, then ends, and the lines that
it counts are the attempts that it makes. Each of them takes a line feed or uses up a failed read, but for the last
one, which may end at the end of the input. -/
theorem lines_le_lineFeeds_add_failures (s : Session) (kind : ReadFault) (times offset : Nat)
    (bytes : List UInt8) :
    (∃ run, s.echo (.withFaults kind times offset bytes) = some run ∧
        s.BoundsLines (.withFaults kind times offset bytes) run ∧
        run.session.tally.lines ≤ bytes.count lineFeed + times + 1) ∧
      (∃ run, s.checkAxioms (.withFaults kind times offset bytes) = some run ∧
        s.BoundsLines (.withFaults kind times offset bytes) run ∧
        run.session.tally.lines ≤ bytes.count lineFeed + times + 1) ∧
      ∃ run, s.prove (.withFaults kind times offset bytes) = some run ∧
        s.BoundsLines (.withFaults kind times offset bytes) run ∧
        run.session.tally.lines ≤ bytes.count lineFeed + times + 1 := by
  have hfinite := Source.not_failsForEver_withFaults kind times offset bytes
  have hle {α : Type} {run : Run α} (h : s.BoundsLines (.withFaults kind times offset bytes) run) :
      run.session.tally.lines ≤ bytes.count lineFeed + times + 1 := by
    have hbound := h.bound.le
    have hfails := Source.failures_withFaults_le kind times offset bytes
    rw [Source.lineFeeds, Source.bytes_withFaults] at hbound
    omega
  refine ⟨?_, ?_, ?_⟩
  · obtain ⟨run, hrun, hbounds⟩ := s.exists_survey_boundsLines candid_inspectFormula hfinite
    exact ⟨run, hrun, hbounds, hle hbounds⟩
  · obtain ⟨run, hrun, hbounds⟩ := s.exists_survey_boundsLines (candid_inspectAxiom s.system) hfinite
    exact ⟨run, hrun, hbounds, hle hbounds⟩
  · obtain ⟨ending, hends, hprove⟩ := exists_prove s (.withFaults kind times offset bytes)
    have hbounds := boundsLines_of_ends s.proofProcedure_countsLines rfl hfinite hends
    exact ⟨_, hprove, hbounds, hle hbounds⟩

-- A line feed, a failed read and the end behind it: three lines are counted.
example :
    (({ system := Hilbert.system } : Session).echo
        (.withFaults .interrupted 1 2 "A\nB".toUTF8.data.toList)).map (·.session.tally.lines) = some 3 := by
  decide +kernel

end Session

end PropositionalCalculus
