import SnippetAudit.Decimal.Binary

/-!
Data as text formats carry it: numbers, texts, lists and tables. A table keeps its members in the
order and in the number in which they were written.
-/

namespace SnippetAudit

/-- A value of a text format. -/
inductive Data where
  | null
  | bool (value : Bool)
  | whole (value : Int)
  | decimal (value : Float)
  | text (value : String)
  | list (items : List Data)
  | table (members : List (String × Data))
deriving Inhabited

namespace Data

def nat? (bound : Nat) : Data → Option Nat
  | whole value => if 0 ≤ value ∧ value < bound then some value.toNat else none
  | _ => none

def nat32? : Data → Option Nat :=
  nat? (Nat.pow 2 32)

def nat64? : Data → Option Nat :=
  nat? (Nat.pow 2 64)

/-- A double. A whole number stands for the double nearest to it. -/
def float? : Data → Option Float
  | whole value => some (Float.ofInt value)
  | decimal value => some value
  | _ => none

def bool? : Data → Option Bool
  | bool value => some value
  | _ => none

def text? : Data → Option String
  | text value => some value
  | _ => none

def list? : Data → Option (List Data)
  | list items => some items
  | _ => none

/-- How data is come by: as it is read from a text, or out of members that were gathered first. -/
inductive Source where
  | direct
  | gathered
deriving DecidableEq, Repr

/-- Data that says nothing. Out of gathered members an empty table says nothing either. -/
def isNothing : Source → Data → Bool
  | _, null => true
  | .gathered, table [] => true
  | _, _ => false

/-- The name of a choice: a text, or a table whose only member is of that name and says nothing. -/
def choice? (source : Source) : Data → Option String
  | text value => some value
  | table [(name, value)] => if value.isNothing source then some name else none
  | _ => none

/-- The member of a table with a given name, the first if there are several. -/
def member? (name : String) : Data → Option Data
  | table members => members.lookup name
  | _ => none

end Data

end SnippetAudit
