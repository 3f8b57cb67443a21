/-!
# Bounded settings

A setting has a name, a value, and bounds. A new value is taken when it lies within the bounds, which
belong to the range themselves, and is ignored otherwise.
-/

set_option autoImplicit false

namespace PropositionalCalculus

/-- A named value with bounds for its replacements. -/
structure Setting (α : Type) where
  name : String
  least : α
  greatest : α
  value : α

namespace Setting

variable {α : Type}

/-- Whether the setting may take the value. -/
def allows [Ord α] (s : Setting α) (v : α) : Bool :=
  (compare s.least v).isLE && (compare v s.greatest).isLE

/-- The setting with the new value, if it is allowed. -/
def set? [Ord α] (s : Setting α) (v : α) : Option (Setting α) :=
  if s.allows v then some { s with value := v } else none

/-- The name and the value in words. -/
def description (render : α → String) (s : Setting α) : String :=
  s.name ++ ": " ++ render s.value

end Setting

end PropositionalCalculus
