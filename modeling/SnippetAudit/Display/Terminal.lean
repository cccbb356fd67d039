import SnippetAudit.Display.Basic
import SnippetAudit.Display.Ink

/-!
Reports, batches and histories as lines for a terminal, with colours or without.
-/

namespace SnippetAudit.Terminal

def statusEffects : Status → List Effect
  | .excellent => [.bold, .green]
  | .needsImprovement => [.bold, .yellow]
  | .poorQuality => [.bold, .red]

def severityEffects : Severity → List Effect
  | .critical => [.bold, .red]
  | .high => [.red]
  | .medium => [.yellow]
  | .low => [.blue]
  | .info => []

/-- A text in the colour of the verdict on a score. -/
def graded (colors : Bool) (score : Nat) (text : String) : String :=
  Ink.paint colors (statusEffects (.ofScore score)) text

def tag (colors : Bool) (severity : Severity) : String :=
  Ink.paint colors (severityEffects severity) ("[" ++ severity.name.toUpper ++ "]")

def issueLine (colors : Bool) (issue : Issue) : String :=
  "  " ++ tag colors issue.severity ++ " line " ++ toString issue.line ++ ": " ++ issue.description

def reportLines (colors : Bool) (report : Report) : List String :=
  let metrics := report.metrics
  [ Ink.paint colors [.bold, .blue] "Code Quality Report",
    Ink.paint colors [.blue] "===================",
    "Score: " ++ graded colors report.score (toString report.score ++ "/100") ++ " (" ++
      graded colors report.score report.status.name ++ ")",
    "",
    "  Lines of code:      " ++ toString metrics.codeLines,
    "  Comments:           " ++ Decimal.Layout.plain.text metrics.share ++ "%",
    "  Complexity proxy:   " ++ toString metrics.decisions,
    "  Readability:        " ++ Decimal.tenths metrics.readability ++ "/10",
    "  Maintainability:    " ++ toString metrics.maintainability ++ "/100",
    "  Time complexity:    " ++ metrics.time.label,
    "  Space complexity:   " ++ metrics.space.label,
    "" ] ++
  if report.issues.isEmpty then [Ink.paint colors [.green] "✓" ++ " No issues found."]
  else ("Issues (" ++ toString report.issues.length ++ "):") :: report.issues.map (issueLine colors)

def batchLine (colors : Bool) (entry : BatchEntry) : String :=
  match entry.outcome with
  | .analyzed report =>
    graded colors report.score (padLeft 5 (toString report.score)) ++ "  " ++
      graded colors report.score report.status.name ++ "  " ++ entry.path.text ++ " (" ++
      toString report.issues.length ++ " issues)"
  | .rejected reason =>
    padLeft 5 "-" ++ "  " ++ Ink.paint colors [.red] "rejected" ++ "  " ++ entry.path.text ++
      ": " ++ reason.getD unknownReason

def batchLines (colors : Bool) (entries : List BatchEntry) : List String :=
  entries.map (batchLine colors) ++
    [toString (entries.countP BatchEntry.isAnalyzed) ++ " of " ++ toString entries.length ++
      " files analyzed"]

def historyLine (colors : Bool) (entry : ArchiveEntry) : String :=
  Ink.paint colors [.dimmed] entry.id ++ "  " ++ entry.instant.shown ++ "  " ++
    graded colors entry.report.score (padLeft 3 (toString entry.report.score)) ++ "  " ++
    entry.report.status.name

/-- The lines of a history, or a line that says that it is empty. -/
def historyLines (colors : Bool) (entries : List ArchiveEntry) : List String :=
  if entries.isEmpty then ["No archived reports."] else entries.map (historyLine colors)

def lines (colors : Bool) : Exhibit → List String
  | .report report => reportLines colors report
  | .batch entries => batchLines colors entries
  | .history entries => historyLines colors entries

end SnippetAudit.Terminal
