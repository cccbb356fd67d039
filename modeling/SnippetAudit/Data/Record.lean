import SnippetAudit.Data.Basic

/-!
Records read from data: a table with the fields by name, or a list with the fields in their order.
-/

namespace SnippetAudit.Data

/-- What happens to the items of a list beyond the fields of the record. -/
inductive Surplus where
  | refused
  | ignored
deriving DecidableEq, Repr

/-- The fields of a record by their names, as far as they are given. Members of other names are
ignored, and no field may be given twice. -/
def fieldsByName? (names : List String) (members : List (String × Data)) :
    Option (List (Option Data)) :=
  if names.any (fun name => 1 < members.countP (·.1 == name)) then none
  else some (names.map fun name => members.lookup name)

/-- The fields of a record in their order, as far as they are given. -/
def fieldsInOrder? (names : List String) (surplus : Surplus) (items : List Data) :
    Option (List (Option Data)) :=
  if surplus = .refused ∧ names.length < items.length then none
  else some (names.zipIdx.map fun (_, index) => items[index]?)

/-- The fields of a record, from a table or from a list. -/
def fields? (names : List String) (surplus : Surplus) : Data → Option (List (Option Data))
  | table members => fieldsByName? names members
  | list items => fieldsInOrder? names surplus items
  | _ => none

def needed (read : Data → Option α) (field : Option Data) : Option α :=
  field.bind read

/-- A field that has a default when it is not given. -/
def optional (default : α) (read : Data → Option α) : Option Data → Option α
  | none => some default
  | some value => read value

end SnippetAudit.Data
