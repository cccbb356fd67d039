import SnippetAudit.Archive.Entry
import SnippetAudit.Path

/-!
What is shown: single reports, the files of a batch with their reports, and archived reports; and
the formats they are shown in.
-/

namespace SnippetAudit

/-- A format of output. -/
inductive Format where
  | json
  | markdown
  | terminal
deriving DecidableEq, Repr, Inhabited

def Format.name : Format → String
  | json => "json"
  | markdown => "markdown"
  | terminal => "terminal"

def Format.all : List Format :=
  [.json, .markdown, .terminal]

def Format.ofName? (name : String) : Option Format :=
  all.find? (·.name == name)

/-- What became of one file of a batch: it was analysed, or it was rejected for a reason that may
not be known. -/
inductive Outcome where
  | analyzed (report : Report)
  | rejected (reason : Option String)
deriving Inhabited

/-- One file of a batch. -/
structure BatchEntry where
  path : Path
  outcome : Outcome
deriving Inhabited

def BatchEntry.isAnalyzed (entry : BatchEntry) : Bool :=
  match entry.outcome with
  | .analyzed _ => true
  | .rejected _ => false

/-- What is said where the reason of a rejection is not known. -/
def unknownReason : String := "unknown error"

/-- An entry of a batch as a record: its path, and its report or the reason it was rejected. -/
def BatchEntry.toData (entry : BatchEntry) : Data :=
  .table (("path", .text entry.path.text) :: match entry.outcome with
    | .analyzed report => [("report", report.toData)]
    | .rejected (some reason) => [("error", .text reason)]
    | .rejected none => [])

/-- What there is to show. -/
inductive Exhibit where
  | report (report : Report)
  | batch (entries : List BatchEntry)
  | history (entries : List ArchiveEntry)

def Exhibit.toData : Exhibit → Data
  | .report only => only.toData
  | .batch entries => .list (entries.map BatchEntry.toData)
  | .history entries => .list (entries.map ArchiveEntry.toData)

/-- JSON text, spread over lines, the last of them ended too. -/
def Exhibit.json (exhibit : Exhibit) : String :=
  Json.print .spread exhibit.toData ++ "\n"

/-- The text of lines, each with a newline behind it. -/
def ended (lines : List String) : String :=
  String.join (lines.map (· ++ "\n"))

end SnippetAudit
