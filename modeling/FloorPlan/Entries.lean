/-! # Named entries in order

A list of names with values. Writing to a known name replaces its value in place; a new name
goes to the end, so the order is that of first writing. -/

namespace FloorPlan

/-- Named values in the order of first writing. -/
abbrev Entries (α : Type) := List (String × α)

namespace Entries

variable {α : Type}

/-- The value of a name. -/
def get? (es : Entries α) (name : String) : Option α := es.lookup name

/-- Whether a name has a value. -/
def has (es : Entries α) (name : String) : Bool := es.any (·.1 == name)

/-- Writes a value to a name. -/
def put (name : String) (value : α) : Entries α → Entries α
  | [] => [(name, value)]
  | (n, v) :: es => if n = name then (n, value) :: es else (n, v) :: put name value es

/-- The entries after writing pairs one by one. -/
def ofPairs (ps : List (String × α)) : Entries α :=
  ps.foldl (fun es p => put p.1 p.2 es) []

/-- The names in order. -/
def names (es : Entries α) : List String := es.map (·.1)

end Entries

end FloorPlan
