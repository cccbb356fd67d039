import SnippetAudit.Calendar.Reader
import SnippetAudit.Digest
import SnippetAudit.Json.Printer
import SnippetAudit.Json.Reader
import SnippetAudit.Report.Record

/-!
Archive entries: a report together with the snippet it is about, the instant it was made and an
identifier that both determine. An entry is written as one line of JSON, in which the fields of the
report stand beside those of the entry.
-/

namespace SnippetAudit

/-- A report as it is archived. -/
structure ArchiveEntry where
  id : String
  instant : Instant
  code : String
  report : Report
deriving Inhabited

namespace ArchiveEntry

/-- The identifier of a snippet at an instant: a digest of the snippet, seeded with the instant. -/
def idOf (code : String) (instant : Instant) : String :=
  Digest.hexText (Digest.hash (UInt64.ofInt instant.nanoCount) code.toUTF8)

def make (code : String) (report : Report) (instant : Instant) : ArchiveEntry :=
  ⟨idOf code instant, instant, code, report⟩

/-- The fields of an entry that are not fields of its report. -/
def ownFields : List String :=
  ["id", "timestamp", "code"]

def toData (entry : ArchiveEntry) : Data :=
  .table
    ([("id", .text entry.id), ("timestamp", .text entry.instant.text),
      ("code", .text entry.code)] ++ entry.report.members)

/-- An entry read from a record, which must be a table. The members that are not its own are gathered,
and the report is read out of them. -/
def ofData? : Data → Option ArchiveEntry
  | .table members => do
    match ← Data.fieldsByName? ownFields members with
    | [id, instant, code] =>
      let id ← Data.needed Data.text? id
      let instant ← Data.needed Data.text? instant >>= Instant.ofText?
      let code ← Data.needed Data.text? code
      let report ← Report.readFrom? .gathered (.table members)
      return { id, instant, code, report }
    | _ => none
  | _ => none

/-- The line of an entry, without the newline behind it. -/
def line (entry : ArchiveEntry) : String :=
  Json.print .compact entry.toData

def ofLine? (line : String) : Option ArchiveEntry :=
  Json.read line >>= ofData?

/-- The last entries of a list, in their order; all of them if there is no limit. -/
def mostRecent (limit : Option Nat) (entries : List ArchiveEntry) : List ArchiveEntry :=
  match limit with
  | none => entries
  | some count => entries.drop (entries.length - count)

end ArchiveEntry

end SnippetAudit
