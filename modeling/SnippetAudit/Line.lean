import SnippetAudit.Text.Lines
import SnippetAudit.Decimal.Binary

/-!
Lines told apart without knowing the language: blank lines, comment lines and code lines, and how
many of each a text has. Every line is of exactly one kind.
-/

namespace SnippetAudit

open Text

/-- What a line holds. -/
inductive LineKind where
  | blank
  | comment
  | code
deriving DecidableEq, Repr

/-- The marks that start a comment line in the common languages. -/
def commentMarks : List String :=
  ["//", "/*", "*", "#"]

/-- A line is judged by what is left of it between the blanks at its ends. -/
def LineKind.of (line : List Char) : LineKind :=
  let inner := trim line
  if inner.isEmpty then blank
  else if commentMarks.any (fun mark => startsWith inner mark.toList) then comment
  else code

/-- Comment lines per hundred lines, to one decimal; nothing is commented where there are no lines.
-/
def commentShare (comments total : Nat) : Float :=
  if total = 0 then 0.0
  else Decimal.roundTenth (Float.ofNat comments / Float.ofNat total * 100.0)

/-- How many lines a text has, of each kind and together. -/
structure LineMetrics where
  total : Nat
  code : Nat
  comment : Nat
  blank : Nat
  share : Float
deriving Inhabited

def LineKind.count (kind : LineKind) (text : List Char) : Nat :=
  (lines text).countP (fun line => LineKind.of line == kind)

def LineMetrics.ofText (text : List Char) : LineMetrics :=
  let total := (lines text).length
  let comment := LineKind.comment.count text
  { total, code := LineKind.code.count text, comment, blank := LineKind.blank.count text,
    share := commentShare comment total }

def LineMetrics.zero : LineMetrics :=
  ⟨0, 0, 0, 0, 0.0⟩

end SnippetAudit
