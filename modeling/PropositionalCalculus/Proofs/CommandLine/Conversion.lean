import PropositionalCalculus.CommandLine.Run
import PropositionalCalculus.Proofs.CommandLine.Arguments
import PropositionalCalculus.Proofs.Session.Echo

/-!
# Converting an input into another notation

A command that only names two notations reads formulas in one and writes them in the other, one on each line
(`CommandLine.exists_conversion`). What it has written is read back by the command that names the two the other way
round, line after line and without an error, and that one writes the formulas in the notation of the input. So
nothing but blanks, malformed lines and what stands behind a blank line is lost on the way there and back
(`CommandLine.conversion_inverse`).
-/

set_option autoImplicit false

namespace PropositionalCalculus.CommandLine

open Line

/-- The bytes of a text. -/
def textBytes (text : String) : List UInt8 :=
  text.toUTF8.data.toList

theorem textBytes_append (s t : String) : textBytes (s ++ t) = textBytes s ++ textBytes t := by
  simp only [textBytes, String.toUTF8_eq_toByteArray, String.toByteArray_append, ByteArray.data_append,
    Array.toList_append]

/-- What a command writes to its standard output. -/
def Exit.outputBytes (exit : Exit) : List UInt8 :=
  textBytes exit.output

/-! ## Writing what is echoed -/

namespace Printed

variable (printing : Notation) (number : Nat) (lines : List (Except LineError Formula)) (p : Printed)

/-- **Of what is echoed, the formulas are written to the output**, one on each line. -/
theorem output_echoed :
    textBytes ((echoed number lines).foldl (event printing) p).output =
      textBytes p.output ++ Formula.lines printing (lines.filterMap Except.toOption) := by
  induction lines generalizing number p with
  | nil => exact (List.append_nil _).symm
  | cons line later ih =>
      cases line with
      | ok f =>
          have hwritten : textBytes (p.line (f.text printing)).output =
              textBytes p.output ++ f.line printing := by
            rw [Printed.line, textBytes_append, textBytes_append, List.append_assoc]
            rfl
          have hlines : Formula.lines printing ((Except.ok f :: later).filterMap Except.toOption) =
              f.line printing ++ Formula.lines printing (later.filterMap Except.toOption) :=
            rfl
          rw [echoed, List.foldl_cons, ih, event, hwritten, hlines, List.append_assoc]
      | error error =>
          rw [echoed, List.foldl_cons, ih]
          rfl

/-- Without errors nothing is written about any. -/
theorem errors_echoed (h : lines.all Except.isOk = true) :
    ((echoed number lines).foldl (event printing) p).errors = p.errors := by
  induction lines generalizing number p with
  | nil => rfl
  | cons line later ih =>
      obtain ⟨hline, hlater⟩ := Bool.and_eq_true_iff.1 h
      cases line with
      | ok f => exact ih (number + 1) _ hlater
      | error error => exact nomatch hline

end Printed

/-! ## Conversions -/

/-- The arguments that name the notation to be read and the one to be written. -/
def conversionArguments (reading printing : Notation) : List String :=
  ["--notation", reading.name, "--print", printing.name]

/-- The command that converts formulas from a notation into another one. -/
def Command.conversion (reading printing : Notation) : Command where
  reading := reading
  printing := printing
  target := .echo
  strict := false
  quiet := false
  path := none

theorem ofArguments_conversion (reading printing : Notation) :
    Command.ofArguments (conversionArguments reading printing) = .ok (.conversion reading printing) := by
  simp only [Command.ofArguments, conversionArguments, List.map_cons, List.map_nil]
  rw [readArguments_value (by decide) rfl (isValue_name reading) (setValue_reading rfl reading),
    readArguments_value (by decide) rfl (isValue_name printing) (setValue_printing rfl printing)]
  rfl

/-- Everyone listens to a conversion. -/
theorem hears_conversion (reading printing : Notation) (event : Event) :
    (Command.conversion reading printing).session.audience.hears event = true := by
  cases event <;> rfl

/-- What a command that converts an input leaves behind. -/
structure Converted (reading printing : Notation) (input : List UInt8) (exit : Exit) : Prop where
  output : exit.outputBytes = Formula.lines printing (reading.accepted input)
  clean : (reading.readings input).all Except.isOk = true → exit.status = 0 ∧ exit.errors = ""

/-- **How an input is converted**: the formulas that its lines give are written in the other notation. They are the
formulas that the run has handed on. -/
theorem exists_conversion (reading printing : Notation) (openPath : String → Opening) (input : List UInt8) :
    ∃ echo exit,
      (Command.conversion reading printing).session.echo (.ofBytes input) = some echo ∧
      run (conversionArguments reading printing) openPath (.ofBytes input) = some exit ∧
      echo.formulas = reading.accepted input ∧ Converted reading printing input exit := by
  obtain ⟨echo, hecho, hevents, hresult⟩ :=
    (Command.conversion reading printing).session.exists_echo rfl input
  rw [List.filter_eq_self.2 fun event _ => hears_conversion reading printing event] at hevents
  refine ⟨echo, (Command.conversion reading printing).afterSurvey echo, hecho, ?_, ?_, ?_, ?_⟩
  · rw [run, ofArguments_conversion]
    exact congrArg (Option.map (Command.conversion reading printing).afterSurvey) hecho
  · rw [Run.formulas, hevents, filterMap_formula?_echoed]
    rfl
  · change textBytes (Printed.ofEvents printing echo.events).output = _
    rw [hevents, Printed.ofEvents, Printed.output_echoed]
    rfl
  · intro hclean
    constructor
    · have hsuccess : echo.result = .success := hresult.trans (Report.afterLines_eq_success_iff.2 hclean)
      rw [Command.afterSurvey, hsuccess]
      rfl
    · change (Printed.ofEvents printing echo.events).errors = ""
      rw [hevents]
      exact Printed.errors_echoed _ _ _ _ hclean

/-- Lines that give nothing but formulas are converted without an error. -/
theorem Converted.of_formulas {reading printing : Notation} {input : List UInt8} {exit : Exit}
    (h : Converted reading printing input exit) {fs : List Formula}
    (hreadings : reading.readings input = fs.map .ok) :
    exit.status = 0 ∧ exit.errors = "" ∧ exit.outputBytes = Formula.lines printing fs := by
  have hall : (reading.readings input).all Except.isOk = true := by
    rw [hreadings, List.all_map, List.all_eq_true]
    exact fun _ _ => rfl
  obtain ⟨hstatus, herrors⟩ := h.clean hall
  exact ⟨hstatus, herrors, Notation.accepted_of_readings hreadings ▸ h.output⟩

/-- **Converting there and back loses nothing.** For any two notations and any input, the output of the conversion
from the first notation into the second one is converted back without an error, into the formulas that the first
conversion has accepted, in order, each on a line without blanks. When the lines of the input up to its first blank
line give formulas, the first conversion is a success too, and these lines come back without their blanks. -/
theorem conversion_inverse (n m : Notation) (openPath : String → Opening) (input : List UInt8) :
    ∃ echo first second,
      (Command.conversion n m).session.echo (.ofBytes input) = some echo ∧
      run (conversionArguments n m) openPath (.ofBytes input) = some first ∧
      run (conversionArguments m n) openPath (.ofBytes first.outputBytes) = some second ∧
      echo.formulas = n.accepted input ∧ first.outputBytes = Formula.lines m echo.formulas ∧
      second.status = 0 ∧ second.errors = "" ∧ second.outputBytes = Formula.lines n echo.formulas ∧
      ∀ (ws : List (List UInt8)) (rest : List UInt8), input = ws.flatMap (· ++ [lineFeed]) ++ rest →
        (∀ w ∈ ws, n.GivesFormula w) → significant rest = [] →
          first.status = 0 ∧ first.errors = "" ∧
            second.outputBytes = ws.flatMap fun w => withoutBlanks w ++ [lineFeed] := by
  obtain ⟨echo, first, hecho, hfirst, hformulas, hconverted⟩ := exists_conversion n m openPath input
  obtain ⟨back, second, -, hsecond, -, hreturned⟩ := exists_conversion m n openPath first.outputBytes
  -- Accepted formulas are plain, so what is written of them is read again.
  have hreread : m.readings first.outputBytes = (n.accepted input).map .ok := by
    rw [hconverted.output]
    exact Notation.readings_lines fun f hf => Notation.plain_of_mem_accepted hf
  obtain ⟨hstatus, herrors, houtput⟩ := hreturned.of_formulas hreread
  refine ⟨echo, first, second, hecho, hfirst, hsecond, hformulas, ?_, hstatus, herrors, ?_, ?_⟩
  · rw [hformulas]
    exact hconverted.output
  · rw [hformulas]
    exact houtput
  · intro ws rest hinput hws hrest
    obtain ⟨fs, hreadings, hlines⟩ := Notation.exists_readings_of_lines hws hrest
    rw [← hinput] at hreadings
    obtain ⟨hfirstStatus, hfirstErrors, -⟩ := hconverted.of_formulas hreadings
    exact ⟨hfirstStatus, hfirstErrors, by rw [houtput, Notation.accepted_of_readings hreadings, hlines]⟩

-- The second line is malformed, and the first one loses its blanks.
example :
    (run (conversionArguments .bracketed .polish) (fun _ => .missing)
      (.ofBytes "( A > B )\n>\n-A\n".toUTF8.data.toList)).map Exit.output = some ">AB\n-A\n" := by
  decide +kernel

end PropositionalCalculus.CommandLine
