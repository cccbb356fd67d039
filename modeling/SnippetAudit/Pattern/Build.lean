import SnippetAudit.Pattern.Basic
import SnippetAudit.Text.Blank

/-!
Patterns that other patterns are made of.
-/

namespace SnippetAudit.Pattern

open Text

def sequence : List Pattern → Pattern
  | [] => nothing
  | [last] => last
  | first :: rest => next first (sequence rest)

/-- The patterns of a list as alternatives, the first preferred. -/
def choice : Pattern → List Pattern → Pattern
  | first, [] => first
  | first, second :: rest => either first (choice second rest)

def perhaps (pattern : Pattern) : Pattern :=
  either pattern nothing

def run (accepts : Char → Bool) : Pattern :=
  next (one accepts) (many accepts)

def char (c : Char) : Pattern :=
  one (· == c)

def exactly (spellings : List String) : Pattern :=
  word (· == ·) (spellings.map String.toList)

/-- One of several spellings, in upper or lower case. -/
def anyCase (spellings : List String) : Pattern :=
  word sameLetter (spellings.map String.toList)

def blanks : Pattern :=
  many isBlank

def someBlanks : Pattern :=
  run isBlank

/-- A character of a line: anything but a newline. -/
def inLine (c : Char) : Bool :=
  c != '\n'

def anything (_ : Char) : Bool :=
  true

end SnippetAudit.Pattern
