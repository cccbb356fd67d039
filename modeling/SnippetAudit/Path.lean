import SnippetAudit.Text.Lines

/-!
Paths: names separated by slashes. A path is kept as it was written, while its components tell where
it leads; two paths with the same components are the same path, and paths are ordered by their
components.
-/

namespace SnippetAudit

open Text

/-- A path as it was written. -/
structure Path where
  text : String
deriving DecidableEq, Repr, Inhabited

namespace Path

/-- A step of a path. -/
inductive Component where
  | root
  | here
  | parent
  | name (text : String)
deriving DecidableEq, Repr

/-- The pieces of a path between slashes. An absolute path starts with an empty one. -/
def slices (path : Path) : List (List Char) :=
  pieces '/' path.text.toList

def isAbsolute (path : Path) : Bool :=
  path.text.toList.head? == some '/'

/-- A piece is a step: it is not empty, and it is no dot, unless the path starts with it. -/
def isStep (slice : List Char × Nat) : Bool :=
  !slice.1.isEmpty && (slice.1 != ['.'] || slice.2 == 0)

def Component.ofSlice (slice : List Char) : Component :=
  if slice = ['.'] then here
  else if slice = ['.', '.'] then parent
  else name (String.ofList slice)

def components (path : Path) : List Component :=
  (if path.isAbsolute then [.root] else []) ++
    (path.slices.zipIdx.filter isStep).map fun slice => .ofSlice slice.1

/-- The path without its last component, unless it has none but the root. -/
def parent? (path : Path) : Option Path :=
  match path.slices.zipIdx.reverse.dropWhile (!isStep ·) with
  | [] => none
  | _ :: before =>
    match before.dropWhile (!isStep ·) with
    | [] => some ⟨if path.isAbsolute then "/" else ""⟩
    | kept => some ⟨String.ofList (Text.join ['/'] (kept.reverse.map (·.1)))⟩

def join (path later : Path) : Path :=
  if later.isAbsolute || path.text.isEmpty then later
  else if path.text.toList.getLast? = some '/' then ⟨path.text ++ later.text⟩
  else ⟨path.text ++ "/" ++ later.text⟩

/-- Components come in this order: the root, the place itself, the place above, and names. -/
def Component.rank : Component → Nat × String
  | root => (0, "")
  | here => (1, "")
  | parent => (2, "")
  | name text => (3, text)

/-- The order of components. Names are ordered by their characters. -/
def Component.le (a b : Component) : Bool :=
  a.rank.1 < b.rank.1 || (a.rank.1 == b.rank.1 && a.rank.2 ≤ b.rank.2)

/-- The order of lists of components: by the first that differ, and else the shorter first. -/
def componentsLe : List Component → List Component → Bool
  | [], _ => true
  | _ :: _, [] => false
  | a :: as, b :: bs => if a = b then componentsLe as bs else a.le b

def le (a b : Path) : Bool :=
  componentsLe a.components b.components

def same (a b : Path) : Bool :=
  a.components == b.components

/-- A path and the paths above it, nearest first, at most `count` of them. -/
def ancestors : Nat → Path → List Path
  | 0, _ => []
  | count + 1, path => path :: match path.parent? with
    | none => []
    | some above => ancestors count above

end Path

end SnippetAudit
