import PropositionalCalculus.Source

/-!
# Opening the input

A path is opened first and looked at afterwards: compressed input, recognised by the extension of the file
name, cannot be read.
-/

set_option autoImplicit false

namespace PropositionalCalculus.CommandLine

/-- What comes of opening a path. -/
inductive Opening where
  /-- There is nothing at the path. -/
  | missing
  /-- It cannot be opened, for the reason given. -/
  | refused (reason : String)
  | opened (source : Source)

/-- Cuts a path into its names, the last one first, given the reversed beginning of the name being read. -/
def namesFrom (names : List (List Char)) (name : List Char) : List Char → List (List Char)
  | [] => name.reverse :: names
  | '/' :: rest => namesFrom (name.reverse :: names) [] rest
  | c :: rest => namesFrom names (c :: name) rest

/-- The last name of a path, not counting empty names and dots behind it. There is none when the path
leads to a parent directory or consists of slashes and dots. -/
def fileName? (path : List Char) : Option (List Char) :=
  let names := namesFrom [] [] path
  let isPadding (name : List Char) : Bool := name.isEmpty || name == ['.']
  match names.dropWhile isPadding with
  | [] => none
  | name :: _ => if name = ['.', '.'] then none else some name

/-- What stands behind the last dot of a file name. A dot at the beginning of the name does not count. -/
def extension? (path : List Char) : Option (List Char) :=
  match fileName? path with
  | none => none
  | some name =>
      let reversed := name.reverse
      match reversed.dropWhile (· ≠ '.') with
      | [] => none
      -- The only dot is the first character of the name.
      | [_] => none
      | _ :: _ :: _ => some (reversed.takeWhile (· ≠ '.')).reverse

/-- The source to read, or why there is none. -/
def sourceOf (openPath : String → Opening) (standardInput : Source) :
    Option String → Except String Source
  | none => .ok standardInput
  | some path =>
      match openPath path with
      | .missing => .error "No such file or directory (os error 2)"
      | .refused reason => .error reason
      | .opened source =>
          if extension? path.toList = some "xz".toList then
            .error "xz compressed input requires the xz feature"
          else .ok source

end PropositionalCalculus.CommandLine
