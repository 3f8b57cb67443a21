import PropositionalCalculus.Session.Settings

/-!
# Arguments of the command

Flags and options have a short and a long name. Short ones may be written together behind one hyphen; the
value of an option follows it in the next argument, or directly, with an equals sign or, after a short
name, without one. A value in an argument of its own does not begin with a hyphen, unless it is a single
hyphen. Two hyphens alone end the options. No flag or option is given twice, there is at most one path,
and at most one of the three targets is chosen.
-/

set_option autoImplicit false

namespace PropositionalCalculus.CommandLine

/-- What can be switched on. -/
inductive Flag where
  | axioms
  | strict
  | quiet
  | version
deriving DecidableEq

/-- What takes a value. -/
inductive ValueOption where
  | reading
  | printing
  | verify
  | optimize
deriving DecidableEq

/-- A flag or an option. -/
inductive Key where
  | flag (f : Flag)
  | value (o : ValueOption)

/-- The flag or option with the short name. -/
def Key.ofShort? : Char → Option Key
  | 'n' => some (.value .reading)
  | 'p' => some (.value .printing)
  | 'a' => some (.flag .axioms)
  | 'v' => some (.value .verify)
  | 'o' => some (.value .optimize)
  | 's' => some (.flag .strict)
  | 'q' => some (.flag .quiet)
  | 'V' => some (.flag .version)
  | _ => none

/-- The flag or option with the long name. -/
def Key.ofLong? (name : List Char) : Option Key :=
  if name = "notation".toList then some (.value .reading)
  else if name = "print".toList then some (.value .printing)
  else if name = "axioms".toList then some (.flag .axioms)
  else if name = "verify".toList then some (.value .verify)
  else if name = "optimize".toList then some (.value .optimize)
  else if name = "strict".toList then some (.flag .strict)
  else if name = "quiet".toList then some (.flag .quiet)
  else if name = "version".toList then some (.flag .version)
  else none

/-- Why the arguments ask for no run. -/
inductive Halt where
  /-- They break a rule. -/
  | misuse
  /-- They ask for the version. -/
  | version
deriving DecidableEq

/-- What the arguments so far have said. -/
structure Given where
  reading : Option Notation := none
  printing : Option Notation := none
  axioms : Bool := false
  verify : Option Nat := none
  optimize : Option Nat := none
  strict : Bool := false
  quiet : Bool := false
  path : Option (List Char) := none

/-- Reads a number: decimal digits, with a plus sign in front if any sign, up to the greatest number that
can be asked for. -/
def number? (text : List Char) : Option Nat :=
  let digits := match text with
    | '+' :: rest => rest
    | _ => text
  if !digits.isEmpty && digits.all Char.isDigit then
    let n := digits.foldl (fun n d => 10 * n + (d.toNat - '0'.toNat)) 0
    if n ≤ greatestNumber then some n else none
  else none

namespace Given

/-- Switches a flag on. -/
def setFlag (g : Given) : Flag → Except Halt Given
  | .axioms => if g.axioms then .error .misuse else .ok { g with axioms := true }
  | .strict => if g.strict then .error .misuse else .ok { g with strict := true }
  | .quiet => if g.quiet then .error .misuse else .ok { g with quiet := true }
  | .version => .error .version

/-- A value that is given for the first time and can be read. -/
def first {α : Type} (before value : Option α) : Except Halt α :=
  match before, value with
  | none, some v => .ok v
  | _, _ => .error .misuse

/-- Gives an option its value. -/
def setValue (g : Given) (o : ValueOption) (text : List Char) : Except Halt Given :=
  match o with
  | .reading =>
      (first g.reading (Notation.ofName? (String.ofList text))).map
        fun n => { g with reading := some n }
  | .printing =>
      (first g.printing (Notation.ofName? (String.ofList text))).map
        fun n => { g with printing := some n }
  | .verify => (first g.verify (number? text)).map fun n => { g with verify := some n }
  | .optimize => (first g.optimize (number? text)).map fun n => { g with optimize := some n }

/-- Gives the path, which is not empty. -/
def setPath (g : Given) (text : List Char) : Except Halt Given :=
  if text.isEmpty then .error .misuse
  else (first g.path (some text)).map fun path => { g with path := some path }

end Given

/-- What remains to be done after an argument: nothing, or the next argument is the value of an option. -/
abbrev Pending := Given × Option ValueOption

/-- Reads the short names behind one hyphen. -/
def readShort (g : Given) : List Char → Except Halt Pending
  | [] => .ok (g, none)
  | c :: rest =>
      match Key.ofShort? c with
      | none => .error .misuse
      | some (.flag f) =>
          match g.setFlag f with
          | .error halt => .error halt
          | .ok g => readShort g rest
      | some (.value o) =>
          -- What follows the name of an option belongs to its value.
          match rest with
          | [] => .ok (g, some o)
          | '=' :: text => (g.setValue o text).map fun g => (g, none)
          | text => (g.setValue o text).map fun g => (g, none)

/-- Reads a long name, with its value if an equals sign follows. -/
def readLong (g : Given) (text : List Char) : Except Halt Pending :=
  match Key.ofLong? (text.takeWhile (· ≠ '=')), text.dropWhile (· ≠ '=') with
  | some (.flag f), [] => (g.setFlag f).map fun g => (g, none)
  | some (.value o), [] => .ok (g, some o)
  | some (.value o), _ :: value => (g.setValue o value).map fun g => (g, none)
  | _, _ => .error .misuse

/-- Whether the argument can be the value of the option before it. -/
def isValue : List Char → Bool
  | ['-'] => true
  | '-' :: _ => false
  | _ => true

/-- Reads the arguments after the end of the options. -/
def readPaths (g : Given) : List (List Char) → Except Halt Given
  | [] => .ok g
  | text :: rest => (g.setPath text).bind fun g => readPaths g rest

/-- Reads one argument that is not two hyphens alone. -/
def readArgument (g : Given) : List Char → Except Halt Pending
  | ['-'] => (g.setPath ['-']).map fun g => (g, none)
  | '-' :: '-' :: text => readLong g text
  | '-' :: text => readShort g text
  | text => (g.setPath text).map fun g => (g, none)

/-- Reads the arguments in order. -/
def readArguments (g : Given) : List (List Char) → Except Halt Given
  | [] => .ok g
  | ['-', '-'] :: rest => readPaths g rest
  | text :: rest =>
      match readArgument g text with
      | .error halt => .error halt
      | .ok (g, none) => readArguments g rest
      | .ok (g, some o) =>
          -- The option waits for its value, which has to be the next argument.
          match rest with
          | [] => .error .misuse
          | value :: rest =>
              if isValue value then
                match g.setValue o value with
                | .error halt => .error halt
                | .ok g => readArguments g rest
              else .error .misuse

/-- What the run is for. -/
inductive Target where
  | echo
  | axioms
  | proof (mode : ProofMode) (premises : Nat)
deriving DecidableEq

/-- What the arguments ask for. -/
structure Command where
  reading : Notation
  printing : Notation
  target : Target
  strict : Bool
  quiet : Bool
  path : Option String

/-- The target that is chosen; more than one cannot be. -/
def Given.target (g : Given) : Except Halt Target :=
  match g.axioms, g.verify, g.optimize with
  | false, none, none => .ok .echo
  | true, none, none => .ok .axioms
  | false, some premises, none => .ok (.proof .verify premises)
  | false, none, some premises => .ok (.proof .optimize premises)
  | _, _, _ => .error .misuse

/-- The command that was given. Formulas are written in the notation in which they are read, unless
another one is asked for. -/
def Given.command (g : Given) : Except Halt Command :=
  let reading := g.reading.getD Settings.catalogue.reading.value
  g.target.map fun target =>
    { reading := reading
      printing := g.printing.getD reading
      target := target
      strict := g.strict
      quiet := g.quiet
      path := g.path.map String.ofList }

/-- The command that the arguments ask for. -/
def Command.ofArguments (arguments : List String) : Except Halt Command :=
  (readArguments {} (arguments.map String.toList)).bind Given.command

end PropositionalCalculus.CommandLine
