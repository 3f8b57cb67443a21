import PropositionalCalculus.Text.Shown

/-!
# Quoted text

Text between double quotes, with a backslash before a quote or a backslash, short forms for the common
controls, and the code point in braces for every other character that is not shown as itself.
-/

set_option autoImplicit false

namespace PropositionalCalculus.Text

/-- The form of a character inside quotes. -/
def quotedChar (c : Char) : String :=
  if c = '\x00' then "\\0"
  else if c = '\t' then "\\t"
  else if c = '\r' then "\\r"
  else if c = '\n' then "\\n"
  else if c = '\\' then "\\\\"
  else if c = '"' then "\\\""
  else if isShown c then c.toString
  else "\\u\x7b" ++ String.ofList (Nat.toDigits 16 c.toNat) ++ "\x7d"

/-- The text between quotes. -/
def quoted (text : String) : String :=
  text.foldl (fun written c => written ++ quotedChar c) "\"" ++ "\""

end PropositionalCalculus.Text
