/-!
# Tables of names

A name stands for at most one object: the one it was last given to.
-/

namespace KeyBroker

/-- A table of names. -/
abbrev Names (α : Type) := List (String × α)

namespace Names

variable {α : Type}

/-- The object of a name. -/
def find? (names : Names α) (name : String) : Option α :=
  (List.find? (·.1 = name) names).map (·.2)

/-- The table without a name. -/
def remove (names : Names α) (name : String) : Names α := names.filter (·.1 ≠ name)

/-- The table with a name for an object. -/
def bind (names : Names α) (name : String) (object : α) : Names α :=
  (name, object) :: Names.remove names name

end Names

end KeyBroker
