import ApprovedOps.Text.CodePoint

/-! # Dictionaries in order of insertion

A dictionary lists its entries in the order in which their keys first came. A later value for a
key takes the place of the earlier one.
-/

namespace ApprovedOps

/-- Entries in the order in which their keys were first inserted. -/
abbrev Dictionary (α : Type) := List (Text × α)

namespace Dictionary

variable {α : Type}

/-- Gives `key` the value `v`, at the key's old place or else at the end. -/
def insert (key : Text) (v : α) : Dictionary α → Dictionary α
  | [] => [(key, v)]
  | (k, w) :: rest => if k = key then (key, v) :: rest else (k, w) :: insert key v rest

/-- The dictionary of entries in order, where a later value for a key wins. -/
def ofEntries (entries : List (Text × α)) : Dictionary α :=
  entries.foldl (fun d (k, v) => insert k v d) []

/-- The value of a key. -/
def get? (key : Text) : Dictionary α → Option α
  | [] => none
  | (k, v) :: rest => if k = key then some v else get? key rest

/-- The dictionary without a key. -/
def erase (key : Text) (d : Dictionary α) : Dictionary α :=
  d.filter (·.1 ≠ key)

end Dictionary

end ApprovedOps
