import SnippetAudit.Archive.File
import SnippetAudit.Proofs.Json.Visible
import SnippetAudit.Proofs.Report.Record
import SnippetAudit.Proofs.Text.Lines

/-!
Lines of archive entries. An entry is read back from its line, and its line is one line whatever the
texts in it are.
-/

namespace SnippetAudit

open Data Text
open Json (Carried)

namespace ArchiveEntry

/-- An entry whose report fits its type and whose instant reads back from its text. -/
structure Storable (entry : ArchiveEntry) : Prop where
  report : entry.report.Storable
  instant : Instant.ofText? entry.instant.text = some entry.instant

theorem ofData?_toData {entry : ArchiveEntry} (storable : entry.Storable) :
    ofData? entry.toData = some entry := by
  obtain ⟨report, instant⟩ := storable
  let members : List (String × Data) :=
    [("id", .text entry.id), ("timestamp", .text entry.instant.text), ("code", .text entry.code)] ++
      entry.report.members
  have own : fieldsByName? ownFields members =
      some [some (.text entry.id), some (.text entry.instant.text), some (.text entry.code)] :=
    fieldsByName?_of_once rfl
  have reported : Report.readFrom? .gathered (.table members) = some entry.report :=
    Report.readFrom?_of_fields .gathered report (fields?_of_once rfl)
  change ofData? (.table members) = some entry
  rw [ofData?, own]
  simp only [needed_some, text?, instant, reported, Option.bind_eq_bind, Option.bind_some]
  rfl

theorem carried_toData {entry : ArchiveEntry} (storable : entry.Storable) (depth : Nat) :
    Carried (depth + 4) entry.toData := by
  refine .table fun member listed => ?_
  simp only [List.mem_append, List.mem_cons, List.not_mem_nil, or_false] at listed
  rcases listed with (rfl | rfl | rfl) | reported
  · exact .text _
  · exact .text _
  · exact .text _
  · exact Report.carried_members storable.report depth member reported

theorem ofLine?_line {entry : ArchiveEntry} (storable : entry.Storable) :
    ofLine? entry.line = some entry := by
  rw [ofLine?, line, Json.read_print (carried_toData storable 124) .compact, Option.bind_eq_bind,
    Option.bind_some, ofData?_toData storable]

theorem line_toList (entry : ArchiveEntry) :
    entry.line.toList = Json.text .compact 0 entry.toData :=
  Json.print_toList .compact entry.toData

theorem visible_line {entry : ArchiveEntry} (storable : entry.Storable) :
    Json.Visible entry.line.toList := by
  rw [line_toList]
  exact Json.visible_text (carried_toData storable 124) 0

/-- A line starts with the brace of its table and the first letter of its first name. -/
theorem exists_line_eq (entry : ArchiveEntry) :
    ∃ more, entry.line.toList = '{' :: '"' :: 'i' :: more := by
  rw [line_toList]
  exact ⟨_, rfl⟩

theorem newline_not_mem_line {entry : ArchiveEntry} (storable : entry.Storable) :
    '\n' ∉ entry.line.toList := by
  intro member
  exact absurd (visible_line storable '\n' member) (by decide)

theorem isBlankLine_line (entry : ArchiveEntry) : isBlankLine entry.line.toList = false := by
  obtain ⟨more, start⟩ := exists_line_eq entry
  rw [start]
  rfl

theorem dropReturn_line {entry : ArchiveEntry} (storable : entry.Storable) :
    dropReturn entry.line.toList = entry.line.toList := by
  refine if_neg fun last => ?_
  exact absurd (visible_line storable '\r' (List.mem_of_getLast? last)) (by decide)

end ArchiveEntry

end SnippetAudit
