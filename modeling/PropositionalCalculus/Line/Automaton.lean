import PropositionalCalculus.Line.Token
import PropositionalCalculus.Line.Error

/-!
# Reading a line with an automaton

An automaton reads the tokens of one line, one at a time, and says at the end of the line which formula
it has read. `Automaton.scan` feeds it from a source of bytes and stops behind the line feed, at the end
of the input, or at a failed read. When a token is refused, what is left of the line is skipped, and a
read that fails meanwhile is the error that is reported.
-/

set_option autoImplicit false

namespace PropositionalCalculus.Line

/-- What one attempt to read a line gives: a formula, nothing, or an error. -/
abbrev Outcome := Except LineError (Option Formula)

/-- Why an automaton cannot go on. -/
inductive Halt where
  /-- The token is refused. -/
  | refused (why : Refusal)
  /-- An operator lacks operands. -/
  | incomplete
deriving DecidableEq

/-- A reader of the tokens of one line. -/
structure Automaton (σ : Type) where
  /-- The state before the first token. -/
  start : σ
  /-- The state after one more token. -/
  accept : σ → Token → Except Halt σ
  /-- The formula or the lack of any on a line that ends here; `none` in the middle of a formula. -/
  finish : σ → Option (Option Formula)

/-- The rest of the line is skipped before the error is given. -/
def skip (error : LineError) : Source → Outcome × Source
  | .ended => (.error error, .ended)
  | .failing fault => (.error (.unreadable fault), .failing fault)
  | .fault fault again rest => (.error (.unreadable fault), rest.afterFault fault again)
  | .byte b rest =>
      match Mark.ofByte b with
      | .lineEnd => (.error error, rest)
      | _ => skip error rest

namespace Automaton

variable {σ : Type}

/-- Reads on from a state in which the given number of tokens has been read. -/
def scan (m : Automaton σ) : Source → σ → Nat → Outcome × Source
  -- Without a token there is no line left; after one, even a complete formula lacks its line end.
  | .ended, _, 0 => (.ok none, .ended)
  | .ended, _, _ + 1 => (.error .unexpectedEnd, .ended)
  | .failing fault, _, _ => (.error (.unreadable fault), .failing fault)
  | .fault fault again rest, _, _ => (.error (.unreadable fault), rest.afterFault fault again)
  | .byte b rest, state, count =>
      match Mark.ofByte b with
      | .blank => scan m rest state count
      | .lineEnd =>
          match m.finish state with
          | some found => (.ok found, rest)
          | none => (.error .incomplete, rest)
      | .token t =>
          -- The token that is read here is number `count + 1` of the line.
          match m.accept state t with
          | .ok next => scan m rest next (count + 1)
          | .error (.refused why) => skip (.refused why t.char (count + 1)) rest
          | .error .incomplete => (.error .incomplete, rest)

/-- Reads the next line of a source. -/
def readLine (m : Automaton σ) (source : Source) : Outcome × Source :=
  m.scan source m.start 0

end Automaton

end PropositionalCalculus.Line
