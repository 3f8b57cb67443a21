import PropositionalCalculus.Proofs.Session.Readings
import PropositionalCalculus.Proofs.Session.Termination

/-!
# What is echoed of an input

A run that echoes an input and is not strict goes through all its readings: it announces the formulas and the
errors in their order, and it is a success when there are no errors (`Session.exists_echo`). The formulas are plain,
so they can be written and read again (`Notation.readings_lines`). When the lines of an input give formulas up to a
blank line, these lines without their blanks are how the formulas are written (`Notation.exists_readings_of_lines`).
-/

set_option autoImplicit false

namespace PropositionalCalculus

open Line

/-! ## Lines that give formulas -/

namespace Notation

variable {n : Notation} {bytes w : List UInt8}

/-- The formulas that the lines of the input give, up to the first line that gives nothing. -/
def accepted (n : Notation) (bytes : List UInt8) : List Formula :=
  (n.readings bytes).filterMap Except.toOption

theorem accepted_of_readings {fs : List Formula} (h : n.readings bytes = fs.map .ok) : n.accepted bytes = fs := by
  rw [accepted, h, List.filterMap_map]
  exact List.filterMap_some

/-- The bytes are a line, but for its line feed, and the line gives a formula. -/
def GivesFormula (n : Notation) (w : List UInt8) : Prop :=
  lineFeed ∉ w ∧ ∃ f, (n.readLine (.ofBytes (w ++ [lineFeed]))).1 = .ok (some f)

/-- A formula that is given by a line is plain. -/
theorem plain_of_mem_accepted {f : Formula} (h : f ∈ n.accepted bytes) : f.Plain := by
  -- The induction is on the lines of the input.
  induction bytes using Notation.readings.induct n with
  | case1 bytes hnone =>
      have hline : (n.readLine (.ofBytes bytes)).1.line? = none := by
        rw [readLine_ofBytes]
        exact hnone
      rw [accepted, readings_of_none hline] at h
      exact absurd h List.not_mem_nil
  | case2 bytes line hsome ih =>
      have hline : (n.readLine (.ofBytes bytes)).1.line? = some line := by
        rw [readLine_ofBytes]
        exact hsome
      rw [accepted, readings_of_some hline] at h
      cases line with
      | error error => exact ih h
      | ok g =>
          rcases List.mem_cons.1 h with rfl | hlater
          · exact plain_of_readLine (Prod.ext (Procedure.line?_eq_ok hline) rfl)
          · exact ih hlater

/-- **Plain formulas that are written one below the other are what the lines give.** -/
theorem readings_lines {fs : List Formula} (hfs : ∀ f ∈ fs, f.Plain) :
    n.readings (Formula.lines n fs) = fs.map .ok := by
  induction fs with
  | nil => exact readings_of_none (by rw [Formula.lines, List.flatMap_nil]; cases n <;> rfl)
  | cons f fs ih =>
      obtain ⟨hf, hrest⟩ := List.forall_mem_cons.1 hfs
      have hline := readLine_line (n := n) hf (.ofBytes (Formula.lines n fs))
      rw [← Source.ofBytes_append] at hline
      have hgiven : (n.readLine (.ofBytes (Formula.lines n (f :: fs)))).1.line? = some (.ok f) :=
        congrArg (fun read => read.1.line?) hline
      have hothers : otherLines (Formula.lines n (f :: fs)) = Formula.lines n fs := by
        rw [Formula.lines, List.flatMap_cons, Formula.line, List.append_assoc]
        exact otherLines_terminated (Formula.lineFeed_not_mem_bytes hf) _
      rw [readings_of_some hgiven, hothers, ih hrest, List.map_cons]

/-- A blank line gives nothing. -/
theorem readings_of_blank (h : significant bytes = []) : n.readings bytes = [] := by
  exact readings_of_none (line?_eq_none_iff.2 h)

/-- A line that gives a formula is its text, but for blanks, and the other lines follow. -/
theorem GivesFormula.exists_readings (h : n.GivesFormula w) (later : List UInt8) :
    ∃ f : Formula, withoutBlanks w = f.bytes n ∧
      n.readings (w ++ lineFeed :: later) = .ok f :: n.readings later := by
  obtain ⟨hw, f, hline⟩ := h
  rw [Source.ofBytes_append] at hline
  obtain ⟨hf, hbytes⟩ := withoutBlanks_of_readLine hw (Prod.ext hline rfl)
  have hread := readLine_of_withoutBlanks hf hw hbytes (.ofBytes later)
  have hgiven : (n.readLine (.ofBytes (w ++ lineFeed :: later))).1.line? = some (.ok f) := by
    rw [Source.ofBytes_append]
    exact congrArg (fun read => read.1.line?) hread
  exact ⟨f, hbytes, by rw [readings_of_some hgiven, otherLines_terminated hw]⟩

/-- **Lines that give formulas up to a blank line** are the formulas' texts, but for blanks. -/
theorem exists_readings_of_lines {ws : List (List UInt8)} (hws : ∀ w ∈ ws, n.GivesFormula w) {rest : List UInt8}
    (hrest : significant rest = []) :
    ∃ fs : List Formula, n.readings (ws.flatMap (· ++ [lineFeed]) ++ rest) = fs.map .ok ∧
      Formula.lines n fs = ws.flatMap fun w => withoutBlanks w ++ [lineFeed] := by
  induction ws with
  | nil => exact ⟨[], readings_of_blank hrest, rfl⟩
  | cons w ws ih =>
      obtain ⟨hw, hothers⟩ := List.forall_mem_cons.1 hws
      obtain ⟨fs, hreadings, hlines⟩ := ih hothers
      obtain ⟨f, hbytes, hfirst⟩ := hw.exists_readings (ws.flatMap (· ++ [lineFeed]) ++ rest)
      refine ⟨f :: fs, ?_, ?_⟩
      · rw [List.flatMap_cons, List.append_assoc, List.append_assoc, List.singleton_append, hfirst, hreadings,
          List.map_cons]
      · rw [Formula.lines, List.flatMap_cons, List.flatMap_cons, ← hlines, hbytes]
        rfl

end Notation

/-! ## Echoing them -/

/-- What is announced over lines when the given number of lines stand before them. -/
def echoed (number : Nat) : List (Except LineError Formula) → List Event
  | [] => []
  | .ok f :: later => .formula f :: echoed (number + 1) later
  | .error error :: later => .rejected (number + 1) error :: echoed (number + 1) later

/-- The formula that is announced. -/
def Event.formula? : Event → Option Formula
  | .formula f => some f
  | _ => none

/-- The formulas that a run has handed on, in order. -/
def Run.formulas {α : Type} (run : Run α) : List Formula :=
  run.events.filterMap Event.formula?

theorem filterMap_formula?_echoed (number : Nat) (lines : List (Except LineError Formula)) :
    (echoed number lines).filterMap Event.formula? = lines.filterMap Except.toOption := by
  induction lines generalizing number with
  | nil => rfl
  | cons line later ih =>
      cases line with
      | ok f => exact congrArg (f :: ·) (ih (number + 1))
      | error error => exact ih (number + 1)

/-- The report on a survey when these are its last lines. -/
def Report.afterLines (report : Report) (lines : List (Except LineError Formula)) : Report :=
  if lines.all Except.isOk then report else .failure

theorem Report.afterLines_failure (lines : List (Except LineError Formula)) :
    Report.failure.afterLines lines = .failure :=
  ite_self _

theorem Report.afterLines_eq_success_iff {lines : List (Except LineError Formula)} :
    Report.success.afterLines lines = .success ↔ lines.all Except.isOk = true := by
  rw [afterLines]
  split <;> simp_all

/-- **What a run announces from any state on** is what the lines give that are left. -/
theorem echoed_of_ends {n : Notation} {bytes : List UInt8} {state : Tally × Report}
    {ending : Ending (Tally × Report)}
    (h : (survey false inspectFormula).Ends n state (.ofBytes bytes) ending) :
    ending.events = echoed state.1.lines (n.readings bytes) ∧
      ending.result.2 = state.2.afterLines (n.readings bytes) := by
  generalize hsource : Source.ofBytes bytes = source at h
  induction h generalizing bytes with
  | finished hline =>
      subst hsource
      rw [Notation.readings_of_none hline]
      exact ⟨rfl, rfl⟩
  | stopped _ hturn => exact absurd hturn (survey_neverStops inspectFormula _ _ _ _)
  | @next state state' source line events ending hline hturn _ ih =>
      subst hsource
      have hrest : Source.ofBytes (otherLines bytes) = (n.readLine (.ofBytes bytes)).2 := by
        rw [Notation.readLine_ofBytes]
      obtain ⟨hevents, hresult⟩ := ih hrest
      rw [Notation.readings_of_some hline, hevents, hresult]
      cases line with
      | ok f =>
          obtain ⟨rfl, hstate⟩ := Prod.mk.inj hturn
          obtain rfl := Turn.next.inj hstate
          exact ⟨rfl, rfl⟩
      | error error =>
          obtain ⟨rfl, hstate⟩ := Prod.mk.inj hturn
          obtain rfl := Turn.next.inj hstate
          exact ⟨rfl, Report.afterLines_failure _⟩

/-- **An echo that is not strict announces what all lines give**, up to the first that gives nothing, and it is a
success when they all give formulas. -/
theorem Session.exists_echo (s : Session) (hstrict : s.settings.strict = false) (bytes : List UInt8) :
    ∃ run, s.echo (.ofBytes bytes) = some run ∧
      run.events = (echoed 0 (s.settings.reading.readings bytes)).filter s.audience.hears ∧
        run.result = Report.success.afterLines (s.settings.reading.readings bytes) := by
  have hnothing : s.settings.reading.ComesToNothing (.ofBytes bytes) :=
    Notation.comesToNothing_of_finite _ (Source.not_failsForEver_ofBytes bytes)
  obtain ⟨ending, hrun⟩ := s.echoProcedure.exists_run_of_comesToNothing ({}, .success) hnothing
  obtain ⟨e, hends, rfl⟩ := Procedure.exists_ends_of_runWithin hrun
  rw [echoProcedure, hstrict] at hends
  obtain ⟨hevents, hresult⟩ := echoed_of_ends hends
  refine ⟨_, by rw [echo, hrun]; rfl, ?_, hresult⟩
  exact congrArg (List.filter s.audience.hears) hevents

end PropositionalCalculus
