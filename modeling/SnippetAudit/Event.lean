import SnippetAudit.Growth
import SnippetAudit.Issue.Basic

/-!
Events: what an analysis decided, told in the order in which it was decided.
-/

namespace SnippetAudit

/-- What is labelled with a class of growth. -/
inductive Dimension where
  | time
  | space
deriving DecidableEq, Repr

def Dimension.name : Dimension → String
  | time => "time"
  | space => "space"

/-- One decision of an analysis. -/
inductive Event where
  | issue (rule : Rule) (severity : Severity) (line : Nat)
  | recursion (function : List Char)
  | pinned (dimension : Dimension) (fixture : String) (growth : Growth)
  | judged (dimension : Dimension) (rule : String) (growth : Growth)
deriving DecidableEq, Repr

def Issue.event (issue : Issue) : Event :=
  .issue issue.rule issue.severity issue.line

end SnippetAudit
