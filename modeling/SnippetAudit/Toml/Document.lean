import SnippetAudit.Data.Basic

/-!
Documents of tables while they are put together. Each table remembers how it came to be, because
that decides who may still add to it: a table that a header names is complete but for tables below
it, one that a longer header passed through may still be named, and one that a dotted key made may
only be extended by dotted keys and by headers below it. A value is complete as it is written.
-/

namespace SnippetAudit.Toml

/-- How a table came to be. -/
inductive Origin where
  | named
  | passed
  | dotted
deriving DecidableEq, Repr

/-- A member of a table: a value, a table that may grow, or a list of tables of which the last may
grow. Of such a list the tables but the last are kept as values. -/
inductive Node where
  | value (data : Data)
  | table (origin : Origin) (members : List (String × Node))
  | tables (earlier : List Data) (last : List (String × Node))
deriving Inhabited

abbrev Members := List (String × Node)

namespace Members

/-- The members with one of them changed or, if there is none of that name, added. -/
def put (name : String) (node : Node) : Members → Members
  | [] => [(name, node)]
  | (other, old) :: rest =>
    if other = name then (name, node) :: rest else (other, old) :: put name node rest

/-- Who adds to a document: a dotted key or a header. -/
inductive Author where
  | key
  | header
deriving DecidableEq, Repr

/-- How the tables come to be that an author passes through. -/
def Author.origin : Author → Origin
  | key => .dotted
  | header => .passed

/-- Changes the members of the table at the end of a path, making the tables that are missing. A
dotted key does not enter a table that a header named, nor a list of tables. -/
def change (author : Author) (act : Members → Option Members) :
    List String → Members → Option Members
  | [], members => act members
  | name :: path, members =>
    match members.lookup name with
    | none => do
      let inner ← change author act path []
      return put name (.table author.origin inner) members
    | some (.table origin inner) =>
      if author = .key ∧ origin = .named then none
      else do
        let inner ← change author act path inner
        return put name (.table origin inner) members
    | some (.tables earlier last) =>
      if author = .key then none
      else do
        let last ← change author act path last
        return put name (.tables earlier last) members
    | some (.value _) => none

def define (name : String) (data : Data) (members : Members) : Option Members :=
  if (members.lookup name).isSome then none else some (put name (.value data) members)

/-- Opens a table for a header. One that exists may be opened if headers only passed through it. -/
def openTable (name : String) (members : Members) : Option Members :=
  match members.lookup name with
  | none => some (put name (.table .named []) members)
  | some (.table .passed inner) => some (put name (.table .named inner) members)
  | some _ => none

end Members

mutual

def Node.toData : Node → Data
  | .value data => data
  | .table _ members => .table (membersToData members)
  | .tables earlier last => .list (earlier ++ [.table (membersToData last)])

def membersToData : List (String × Node) → List (String × Data)
  | [] => []
  | (name, node) :: rest => (name, node.toData) :: membersToData rest

end

/-- Opens one more table of a list of tables for a header. -/
def Members.openNext (name : String) (members : Members) : Option Members :=
  match members.lookup name with
  | none => some (put name (.tables [] []) members)
  | some (.tables earlier last) =>
    some (put name (.tables (earlier ++ [.table (membersToData last)]) []) members)
  | some _ => none

/-- Where the lines behind a header belong: the path of its table, from the root. -/
structure Document where
  root : Members
  current : List String

namespace Document

def empty : Document :=
  ⟨[], []⟩

/-- Adds a value under a dotted key, in the current table. -/
def define (path : List String) (name : String) (data : Data) (document : Document) :
    Option Document := do
  let root ← Members.change .header (Members.change .key (Members.define name data) path)
    document.current document.root
  return { document with root }

def openTable (path : List String) (name : String) (document : Document) : Option Document := do
  let root ← Members.change .header (Members.openTable name) path document.root
  return ⟨root, path ++ [name]⟩

/-- Goes on to one more table of the list of a header. -/
def openNext (path : List String) (name : String) (document : Document) : Option Document := do
  let root ← Members.change .header (Members.openNext name) path document.root
  return ⟨root, path ++ [name]⟩

def toData (document : Document) : Data :=
  .table (membersToData document.root)

end Document

end SnippetAudit.Toml
