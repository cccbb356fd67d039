import SnippetAudit.Pattern.Build

/-!
Decision points of a text: the places where a program of any common language may go one way or the
other. They stand in for the branches of a control flow graph, which a text of unknown language does
not have.
-/

namespace SnippetAudit

/-- The greatest number a 32-bit count holds; sums that would pass it stay there. -/
def maxCount : Nat :=
  Nat.pow 2 32 - 1

/-- Branch and loop keywords, and the operators that stop early, between edges of words. An
`else if` is one decision, so it is tried before the `if` in it. An operator lies between edges
only where word characters touch it on both sides. -/
def decisionWord : Pattern :=
  .sequence [.edge,
    .anyCase ["else if", "if", "for", "while", "switch", "case", "catch", "elif", "&&", "||"],
    .edge]

/-- One, and one more for each decision word and each question mark. -/
def decisionCount (text : List Char) : Nat :=
  min maxCount (1 + (decisionWord.count text + text.count '?'))

end SnippetAudit
