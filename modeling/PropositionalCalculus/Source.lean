/-!
# Sources of bytes

A `Source` says what reading byte by byte gives, read after read: a byte, a failed read, or the end of
the input. A failed read takes no byte. A source may fail now and then and go on afterwards, or from
some point on fail at every read.
-/

set_option autoImplicit false

namespace PropositionalCalculus

/-- Why a read failed. -/
inductive ReadFault where
  | notFound
  | permissionDenied
  | brokenPipe
  | interrupted
  | invalidData
  | timedOut
  | unexpectedEof
  | isADirectory
  | other
deriving DecidableEq

/-- The fault in words. -/
def ReadFault.message : ReadFault → String
  | notFound => "entity not found"
  | permissionDenied => "permission denied"
  | brokenPipe => "broken pipe"
  | interrupted => "operation interrupted"
  | invalidData => "invalid data"
  | timedOut => "timed out"
  | unexpectedEof => "unexpected end of file"
  | isADirectory => "is a directory"
  | other => "other error"

/-- What successive reads give. -/
inductive Source where
  /-- The end of the input, which every further read meets again. -/
  | ended
  /-- Every further read fails. -/
  | failing (fault : ReadFault)
  /-- A byte, then the rest. -/
  | byte (b : UInt8) (rest : Source)
  /-- A failed read, as many `again`, then the rest. -/
  | fault (kind : ReadFault) (again : Nat) (rest : Source)

namespace Source

/-- The source left when the first failed read of `fault kind again rest` is over. -/
def afterFault (kind : ReadFault) (again : Nat) (rest : Source) : Source :=
  match again with
  | 0 => rest
  | n + 1 => fault kind n rest

/-- The given number of failed reads, then the rest. -/
def faults (kind : ReadFault) (times : Nat) (rest : Source) : Source :=
  match times with
  | 0 => rest
  | n + 1 => fault kind n rest

/-- The given bytes, then the rest. -/
def append (bytes : List UInt8) (rest : Source) : Source :=
  bytes.foldr byte rest

/-- A source that gives the bytes and never fails. -/
def ofBytes (bytes : List UInt8) : Source :=
  append bytes ended

/-- A source that fails the given number of times when the read at the given offset is due. An offset
behind the end of the bytes is never reached. -/
def withFaults (kind : ReadFault) (times offset : Nat) (bytes : List UInt8) : Source :=
  if offset ≤ bytes.length then
    append (bytes.take offset) (faults kind times (ofBytes (bytes.drop offset)))
  else ofBytes bytes

/-- Adds the number of bytes still to be read to `count`. -/
def countUnread (count : Nat) : Source → Nat
  | ended => count
  | failing _ => count
  | byte _ rest => rest.countUnread (count + 1)
  | fault _ _ rest => rest.countUnread count

/-- The number of bytes still to be read. -/
def unread (source : Source) : Nat :=
  source.countUnread 0

/-- Adds the number of reads to `count`, up to the end or the point from which every read fails. -/
def countReads (count : Nat) : Source → Nat
  | ended => count
  | failing _ => count
  | byte _ rest => rest.countReads (count + 1)
  | fault _ again rest => rest.countReads (count + again + 1)

/-- The number of reads, failed ones included, before the end or before the point from which every read
fails. -/
def reads (source : Source) : Nat :=
  source.countReads 0

end Source

end PropositionalCalculus
