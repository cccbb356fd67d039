import SnippetAudit.Growth
import SnippetAudit.Score

/-!
Reports: the complete result of analysing one snippet.
-/

namespace SnippetAudit

/-- The numbers of a report. -/
structure ReportMetrics where
  codeLines : Nat
  share : Float
  decisions : Nat
  readability : Float
  maintainability : Nat
  time : Growth
  space : Growth
deriving Inhabited

/-- The result of analysing one snippet. -/
structure Report where
  score : Nat
  status : Status
  metrics : ReportMetrics
  issues : List Issue
deriving Inhabited

/-- How many issues of each severity a report has, the worst severity first. -/
def Report.severityCounts (report : Report) : List Nat :=
  Severity.all.map (Issue.countAs · report.issues)

end SnippetAudit
