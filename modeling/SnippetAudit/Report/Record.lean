import SnippetAudit.Data.Record
import SnippetAudit.Report.Basic

/-!
Reports and their parts as records of a text format. The fields are written in the order in which
they are named here; a record given as a list has them in the same order.
-/

namespace SnippetAudit

open Data

namespace Issue

def fields : List String :=
  ["severity", "description", "line", "rule"]

def toData (issue : Issue) : Data :=
  .table [("severity", .text issue.severity.name), ("description", .text issue.description),
    ("line", .whole issue.line), ("rule", .text issue.rule.name)]

/-- An issue read from a record. Its line is kept as it is. -/
def readFrom? (source : Source) (data : Data) : Option Issue :=
  match fields? fields .refused data with
  | some [severity, description, line, rule] => do
    let severity ← needed (choice? source) severity >>= Severity.ofName?
    let description ← needed text? description
    let line ← needed nat64? line
    let rule ← needed (choice? source) rule >>= Rule.ofName?
    return ⟨severity, description, line, rule⟩
  | _ => none

def ofData? (data : Data) : Option Issue :=
  readFrom? .direct data

end Issue

namespace LineMetrics

def fields : List String :=
  ["totalLines", "codeLines", "commentLines", "blankLines", "commentPercentage"]

def toData (metrics : LineMetrics) : Data :=
  .table [("totalLines", .whole metrics.total), ("codeLines", .whole metrics.code),
    ("commentLines", .whole metrics.comment), ("blankLines", .whole metrics.blank),
    ("commentPercentage", .decimal metrics.share)]

def ofData? (data : Data) : Option LineMetrics :=
  match fields? fields .refused data with
  | some [total, code, comment, blank, share] => do
    let total ← needed nat64? total
    let code ← needed nat64? code
    let comment ← needed nat64? comment
    let blank ← needed nat64? blank
    let share ← needed float? share
    return { total, code, comment, blank, share }
  | _ => none

end LineMetrics

namespace ReportMetrics

def fields : List String :=
  ["loc", "commentPercentage", "cyclomaticComplexityProxy", "readability", "maintainability",
    "timeComplexity", "spaceComplexity"]

def toData (metrics : ReportMetrics) : Data :=
  .table [("loc", .whole metrics.codeLines), ("commentPercentage", .decimal metrics.share),
    ("cyclomaticComplexityProxy", .whole metrics.decisions),
    ("readability", .decimal metrics.readability),
    ("maintainability", .whole metrics.maintainability),
    ("timeComplexity", .text metrics.time.label), ("spaceComplexity", .text metrics.space.label)]

def ofData? (data : Data) : Option ReportMetrics :=
  match fields? fields .refused data with
  | some [codeLines, share, decisions, readability, maintainability, time, space] => do
    let codeLines ← needed nat64? codeLines
    let share ← needed float? share
    let decisions ← needed nat32? decisions
    let readability ← needed float? readability
    let maintainability ← needed nat32? maintainability
    let time ← needed text? time >>= Growth.ofLabel?
    let space ← needed text? space >>= Growth.ofLabel?
    return { codeLines, share, decisions, readability, maintainability, time, space }
  | _ => none

end ReportMetrics

namespace Report

def fields : List String :=
  ["score", "status", "metrics", "issues"]

def members (report : Report) : List (String × Data) :=
  [("score", .whole report.score), ("status", .text report.status.name),
    ("metrics", report.metrics.toData), ("issues", .list (report.issues.map Issue.toData))]

def toData (report : Report) : Data :=
  .table report.members

def readFrom? (source : Source) (data : Data) : Option Report :=
  match fields? fields .refused data with
  | some [score, status, metrics, issues] => do
    let score ← needed nat32? score
    let status ← needed (choice? source) status >>= Status.ofName?
    let metrics ← needed ReportMetrics.ofData? metrics
    let issues ← needed list? issues >>= (·.mapM (Issue.readFrom? source))
    return { score, status, metrics, issues }
  | _ => none

def ofData? (data : Data) : Option Report :=
  readFrom? .direct data

end Report

end SnippetAudit
