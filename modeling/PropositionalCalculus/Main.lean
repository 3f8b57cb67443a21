import PropositionalCalculus.CommandLine.Run

/-!
# The command

Reads the arguments, opens the input, and writes what the run leaves behind.
-/

set_option autoImplicit false

namespace PropositionalCalculus.CommandLine

/-- The number of a system error, which may be handed over with a minus sign, as a word that wraps. -/
def systemNumber (code : UInt32) : Nat :=
  if code.toNat < UInt32.size / 2 then code.toNat else UInt32.size - code.toNat

/-- The words for a system error, with its number. -/
def systemReason (code : UInt32) (details : String) : String :=
  details.capitalize ++ " (os error " ++ (systemNumber code).repr ++ ")"

/-- What comes of opening a path that cannot be read as a file. A directory can be opened, but no read
from it succeeds; the system's number for that is 21. -/
def openingOfError : IO.Error → Opening
  | .noFileOrDirectory _ _ _ => .missing
  | .inappropriateType _ code details =>
      if systemNumber code = 21 then .opened (.failing .isADirectory) else .refused (systemReason code details)
  | .permissionDenied _ code details => .refused (systemReason code details)
  | reason => .refused (toString reason)

/-- Opens a path and reads what is there. -/
def openPath (path : String) : IO Opening := do
  try
    let content ← IO.FS.readBinFile path
    return .opened (Source.ofBytes content.toList)
  catch reason => return openingOfError reason

/-- Writes what a command leaves behind and gives its exit status. -/
def report (exit : Exit) : IO UInt32 := do
  (← IO.getStdout).putStr exit.output
  (← IO.getStderr).putStr exit.errors
  return UInt32.ofNat exit.status

/-- Writes the same error again and again. -/
def repeatError (quiet : Bool) (error : LineError) : IO UInt32 := do
  repeat
    unless quiet do
      IO.eprintln error.message
  return 1

/-- Runs a command. A survey of a directory that is not strict never ends. -/
def Command.execute (command : Command) : IO UInt32 := do
  let opening ← match command.path with
    | none => pure .missing
    | some path => openPath path
  let standardInput ← match command.path with
    | none => do
        let content ← (← IO.getStdin).readBinToEnd
        pure (Source.ofBytes content.toList)
    | some _ => pure .ended
  match command.run (fun _ => opening) standardInput with
  | some exit => report exit
  | none => repeatError command.quiet (.unreadable .isADirectory)

/-- Runs the command that the arguments ask for. -/
def execute (arguments : List String) : IO UInt32 :=
  match Command.ofArguments arguments with
  | .error .misuse => report { status := 2, errors := "error: the arguments are not understood\n" }
  | .error .version => report { status := 0, output := versionText }
  | .ok command => command.execute

end PropositionalCalculus.CommandLine

/-- The entry point of the program. -/
def main (arguments : List String) : IO UInt32 :=
  PropositionalCalculus.CommandLine.execute arguments
