import SnippetAudit.Display.Basic

/-!
Reports, batches and histories as Markdown, in tables.
-/

namespace SnippetAudit.Markdown

/-- A text for a cell of a table: bars are escaped, so that none ends the cell. -/
def cell (text : String) : String :=
  String.ofList (text.toList.flatMap fun c => if c = '|' then ['\\', '|'] else [c])

def row (cells : List String) : String :=
  "| " ++ " | ".intercalate cells ++ " |"

def summary (report : Report) : List String :=
  let metrics := report.metrics
  [ "## Summary", "", row ["Metric", "Value"], "|--------|-------|",
    row ["Score", toString report.score ++ " / 100"],
    row ["Status", report.status.name],
    row ["Lines of Code", toString metrics.codeLines],
    row ["Comment Percentage", Decimal.Layout.plain.text metrics.share ++ "%"],
    row ["Complexity Proxy", toString metrics.decisions],
    row ["Readability", Decimal.tenths metrics.readability ++ " / 10"],
    row ["Maintainability", toString metrics.maintainability ++ " / 100"],
    row ["Time Complexity", metrics.time.label],
    row ["Space Complexity", metrics.space.label], "" ]

def issueRow (issue : Issue) : String :=
  row [issue.severity.name, toString issue.line, cell issue.description]

/-- The table of issues, or a line that says that there are none. -/
def issues (found : List Issue) : List String :=
  ["## Issues", ""] ++
    if found.isEmpty then ["No issues found."]
    else [row ["Severity", "Line", "Description"], "|----------|------|-------------|"] ++
      found.map issueRow

def batchRow (entry : BatchEntry) : String :=
  match entry.outcome with
  | .analyzed report =>
    row [entry.path.text, toString report.score, report.status.name, toString report.issues.length]
  | .rejected reason =>
    row [entry.path.text, "-", "rejected: " ++ cell (reason.getD unknownReason), "-"]

def historyRow (entry : ArchiveEntry) : String :=
  row [entry.id, entry.instant.shown ++ " UTC", toString entry.report.score,
    entry.report.status.name, toString entry.report.metrics.codeLines]

def lines : Exhibit → List String
  | .report report => ["# Code Quality Report", ""] ++ summary report ++ issues report.issues
  | .batch entries =>
    ["# Batch Analysis", "", row ["File", "Score", "Status", "Issues"],
      "|------|-------|--------|--------|"] ++ entries.map batchRow
  | .history entries =>
    ["# Report History", "", row ["Id", "Timestamp", "Score", "Status", "LOC"],
      "|----|-----------|-------|--------|-----|"] ++ entries.map historyRow

end SnippetAudit.Markdown
