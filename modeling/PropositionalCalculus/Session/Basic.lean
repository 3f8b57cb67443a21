import PropositionalCalculus.ProofSystem
import PropositionalCalculus.Session.Settings
import PropositionalCalculus.Session.Tally
import PropositionalCalculus.Session.Procedure

/-!
# Sessions

A session has a proof system, settings and an audience, and keeps the counts of its latest run.
-/

set_option autoImplicit false

namespace PropositionalCalculus

/-- What runs have in common. -/
structure Session where
  system : ProofSystem
  settings : Settings := {}
  audience : Audience := {}
  /-- The counts of the latest run. -/
  tally : Tally := {}

/-- A run that has ended. -/
structure Run (α : Type) where
  /-- The session after the run. -/
  session : Session
  /-- What the audience heard, in order. -/
  events : List Event
  /-- What is left of the source. -/
  source : Source
  result : α

/-- The run of a session that ended with counts and a result. -/
def Session.conclude {α : Type} (s : Session) (ending : Ending (Tally × α)) : Run α where
  session := { s with tally := ending.result.1 }
  events := ending.events.filter s.audience.hears
  source := ending.source
  result := ending.result.2

end PropositionalCalculus
