import SnippetAudit.Text.Word

/-!
Patterns over characters and where they match. A pattern tries its alternatives in the order
written, so at every place of a text it has at most one preferred match. The preferred matches at
all places are found together, from the end of the text back to its start, with one table for each
part of the pattern: the work is the size of the pattern times the length of the text, whatever the
text.
-/

namespace SnippetAudit

open Text

/-- A place between two characters of a text: how many characters come before it, the last of
them, and the text from there on. -/
structure Place where
  index : Nat
  before : Option Char
  rest : List Char
deriving DecidableEq, Repr

namespace Place

/-- The places of a text from the last to the first, so that each is found at the number of
characters behind it. `front` holds the characters before them, the last first, and `index` counts
those; `rest` holds the characters behind. -/
def backward (found : Array Place) (index : Nat) (rest : List Char) : List Char → Array Place
  | [] => found.push ⟨index, none, rest⟩
  | c :: front => backward (found.push ⟨index, some c, rest⟩) (index - 1) (c :: rest) front

/-- All places of a text, each at the number of characters behind it. -/
def all (text : List Char) : Array Place :=
  backward #[] text.length [] text.reverse

/-- The character after a place, if there is one and it is accepted. -/
def admits (place : Place) (accepts : Char → Bool) : Bool :=
  place.rest.head?.any accepts

/-- A word begins or ends at a place: exactly one of its neighbours is a word character. -/
def isEdge (place : Place) : Bool :=
  place.before.any isWord != place.rest.head?.any isWord

end Place

/-- A pattern. In `many` the longer run is preferred, in `few` the shorter one; in `either` the
first alternative is, and in `word` the first spelling. -/
inductive Pattern where
  | nothing
  | edge
  | one (accepts : Char → Bool)
  | many (accepts : Char → Bool)
  | few (accepts : Char → Bool)
  | word (same : Char → Char → Bool) (spellings : List (List Char))
  | next (first second : Pattern)
  | either (first second : Pattern)

namespace Pattern

/-- A text begins with a spelling, character by character the same. -/
def spells (same : Char → Char → Bool) : List Char → List Char → Bool
  | [], _ => true
  | _ :: _, [] => false
  | c :: spelling, d :: text => same c d && spells same spelling text

/-- What each place attains when the pattern is matched from it and `goals` says what is attained
where the match stops. Places and goals are found at the number of characters behind them, so the
place behind the next character comes just before. Where the end of a sequence attains nothing
anywhere, its beginning is not tried. -/
def attain : Pattern → Array Place → Array (Option α) → Array (Option α)
  | nothing, _, goals => goals
  | edge, places, goals =>
    Array.zipWith (fun place goal => if place.isEdge then goal else none) places goals
  | one accepts, places, goals =>
    places.mapIdx fun left place => if place.admits accepts then goals[left - 1]?.join else none
  | many accepts, places, goals =>
    places.foldl (fun found place =>
      found.push ((if place.admits accepts then found.back?.join else none) <|>
        goals[found.size]?.join)) #[]
  | few accepts, places, goals =>
    places.foldl (fun found place =>
      found.push (goals[found.size]?.join <|>
        (if place.admits accepts then found.back?.join else none))) #[]
  | word same spellings, places, goals =>
    places.mapIdx fun left place => spellings.findSome? fun spelling =>
      if spells same spelling place.rest then goals[left - spelling.length]?.join else none
  | next first second, places, goals =>
    let later := second.attain places goals
    if later.all Option.isNone then later else first.attain places later
  | either first second, places, goals =>
    Array.zipWith (· <|> ·) (first.attain places goals) (second.attain places goals)

/-- A stretch of a text that a pattern matches. -/
structure Occurrence where
  start : Place
  stop : Place
deriving DecidableEq, Repr

/-- For every place of a text, where the preferred match from it stops. -/
def stops (pattern : Pattern) (text : List Char) : List (Place × Option Place) :=
  let places := Place.all text
  (places.zip (pattern.attain places (places.map some))).toListRev

/-- The matches met from left to right, each sought from the stop of the one before it; `resume`
is the index from which the next may start. -/
def collect (resume : Nat) (found : List Occurrence) :
    List (Place × Option Place) → List Occurrence
  | [] => found.reverse
  | (start, stop?) :: rest =>
    match stop? with
    | some stop =>
      if resume ≤ start.index then collect stop.index (⟨start, stop⟩ :: found) rest
      else collect resume found rest
    | none => collect resume found rest

/-- The occurrences of a pattern in a text: leftmost first, and no two overlap. -/
def occurrences (pattern : Pattern) (text : List Char) : List Occurrence :=
  collect 0 [] (pattern.stops text)

def count (pattern : Pattern) (text : List Char) : Nat :=
  (pattern.occurrences text).length

def occursIn (pattern : Pattern) (text : List Char) : Bool :=
  (pattern.stops text).any (·.2.isSome)

end Pattern

end SnippetAudit
