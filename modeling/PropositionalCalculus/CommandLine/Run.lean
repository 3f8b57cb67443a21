import PropositionalCalculus.CommandLine.Arguments
import PropositionalCalculus.CommandLine.Input
import PropositionalCalculus.Formula.Text
import PropositionalCalculus.Hilbert
import PropositionalCalculus.Session.Proving
import PropositionalCalculus.Session.Survey

/-!
# Running a command

A command surveys its input or checks it as a proof in the Hilbert system. Everything that a run announces
is written in lines of text, unless the command is quiet, and the exit status tells whether the run was a
success.
-/

set_option autoImplicit false

namespace PropositionalCalculus.CommandLine

/-- What a command leaves behind. -/
structure Exit where
  status : Nat
  output : String := ""
  errors : String := ""
deriving DecidableEq

/-- Text written by a command, line by line. -/
structure Printed where
  output : String := ""
  errors : String := ""

namespace Printed

/-- Writes a line of output. -/
def line (p : Printed) (text : String) : Printed :=
  { p with output := p.output ++ text ++ "\n" }

/-- Writes a line about an error. -/
def error (p : Printed) (text : String) : Printed :=
  { p with errors := p.errors ++ text ++ "\n" }

/-- Writes what an event says. -/
def event (printing : Notation) (p : Printed) : Event → Printed
  | .formula f => p.line (f.text printing)
  | .classified _ (some type) => p.line (Justification.axiomOfType type).message
  | .classified _ none => p.line ProofError.notAnAxiom.message
  | .step _ _ justification => p.line justification.message
  | .rejected _ error => p.error error.message

/-- Writes what the events say. -/
def ofEvents (printing : Notation) (events : List Event) : Printed :=
  events.foldl (event printing) {}

/-- Writes why a proof run failed. -/
def failure (mode : ProofMode) (p : Printed) (f : ProofFailure) : Printed :=
  match f.error, mode with
  | .proof .notDeducible, .verify => p.line ProofError.notDeducible.message
  | .proof .notDeducible, .optimize => p.error "Invalid proof given."
  | .line _, .optimize => p.error ("Invalid formula " ++ f.step.repr ++ ".")
  | error, _ => p.error error.message

/-- Writes what a proof run has come to: the members to be kept of an optimized proof, or a failure. -/
def proofResult (mode : ProofMode) (printing : Notation) (p : Printed) :
    Except ProofFailure ProofReport → Printed
  | .ok (.verified _) => p
  | .ok (.optimized proof) => proof.keptFormulas.foldl (fun p f => p.line (f.text printing)) p
  | .error f => p.failure mode f

/-- The end of a command that has written this much. -/
def exit (p : Printed) (success : Bool) : Exit where
  status := if success then 0 else 1
  output := p.output
  errors := p.errors

end Printed

/-- Everything that a version request is answered with. -/
def versionText : String := "prop_proof 0.1.0\n"

namespace Command

/-- The session in which the command runs. -/
def session (c : Command) : Session where
  system := Hilbert.system
  settings :=
    match c.target with
    | .proof mode premises =>
        { reading := c.reading, strict := c.strict, premises := premises, proofMode := mode }
    | _ => { reading := c.reading, strict := c.strict }
  audience := if c.quiet then .nobody else {}

/-- The end of a survey. -/
def afterSurvey (c : Command) (run : Run Report) : Exit :=
  (Printed.ofEvents c.printing run.events).exit (run.result == .success)

/-- The end of a proof run. -/
def afterProof (c : Command) (mode : ProofMode) (run : Run (Except ProofFailure ProofReport)) : Exit :=
  let heard := Printed.ofEvents c.printing run.events
  (if c.quiet then heard else heard.proofResult mode c.printing run.result).exit run.result.toBool

/-- Runs the command on a source. `none` when it never ends. -/
def runOn (c : Command) (source : Source) : Option Exit :=
  match c.target with
  | .echo => (c.session.echo source).map c.afterSurvey
  | .axioms => (c.session.checkAxioms source).map c.afterSurvey
  | .proof mode _ => (c.session.prove source).map (c.afterProof mode)

/-- Runs the command, given what comes of opening a path, and the standard input. `none` when it never
ends. -/
def run (c : Command) (openPath : String → Opening) (standardInput : Source) : Option Exit :=
  match sourceOf openPath standardInput c.path with
  | .ok source => c.runOn source
  | .error reason => some { status := 1, errors := "Could not read input: " ++ reason ++ "\n" }

end Command

/-- Runs the command that the arguments ask for. `none` when it never ends. -/
def run (arguments : List String) (openPath : String → Opening) (standardInput : Source) :
    Option Exit :=
  match Command.ofArguments arguments with
  | .error .misuse => some { status := 2 }
  | .error .version => some { status := 0, output := versionText }
  | .ok command => command.run openPath standardInput

end PropositionalCalculus.CommandLine
