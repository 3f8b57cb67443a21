import PropositionalCalculus.Line
import PropositionalCalculus.Session.Event

/-!
# Procedures over the lines of a source

A procedure reads line after line and reacts to each, until a line gives no formula or the procedure
stops by itself. On a source that fails for ever a procedure may go on for ever too, so
`Procedure.runWithin` allows it a number of attempts at reading a line, and gives `none` when they do not
suffice. `Procedure.run` allows as many as the source can need.
-/

set_option autoImplicit false

namespace PropositionalCalculus

/-- The formula or the error that an attempt to read a line gives; `none` when there is neither. -/
def Line.Outcome.line? : Line.Outcome → Option (Except LineError Formula)
  | .ok none => none
  | .ok (some f) => some (.ok f)
  | .error error => some (.error error)

/-- How a procedure goes on after a line. -/
inductive Turn (σ ρ : Type) where
  | next (state : σ)
  | stop (result : ρ)

/-- What is done with the lines of a source: a state `σ` is carried along, and the result is a `ρ`. -/
structure Procedure (σ ρ : Type) where
  /-- The reaction to a line: what is announced, and how to go on. -/
  onLine : σ → Except LineError Formula → List Event × Turn σ ρ
  /-- The result when a line gives no formula. -/
  onEnd : σ → ρ

/-- The end of a run. -/
structure Ending (ρ : Type) where
  result : ρ
  /-- What was announced, in order. -/
  events : List Event
  /-- What is left of the source. -/
  source : Source

namespace Procedure

variable {σ ρ : Type}

/-- Runs the procedure with a limited number of attempts at reading a line. The events so far are given
with the last one first. -/
def runWithin (p : Procedure σ ρ) (n : Notation) :
    Nat → σ → List Event → Source → Option (Ending ρ)
  | 0, _, _, _ => none
  | attempts + 1, state, announced, source =>
      match (n.readLine source).1.line? with
      | none => some ⟨p.onEnd state, announced.reverse, (n.readLine source).2⟩
      | some line =>
          -- The state is the only memory from one line to the next.
          match p.onLine state line with
          | (events, .stop result) =>
              some ⟨result, (events.reverse ++ announced).reverse, (n.readLine source).2⟩
          | (events, .next state) =>
              runWithin p n attempts state (events.reverse ++ announced) (n.readLine source).2

/-- Runs the procedure. Every attempt that does not end the run uses up a read of the source, so the
attempts suffice unless the source fails for ever and the procedure does not stop at an error. -/
def run (p : Procedure σ ρ) (n : Notation) (state : σ) (source : Source) : Option (Ending ρ) :=
  p.runWithin n (source.reads + 1) state [] source

end Procedure

end PropositionalCalculus
