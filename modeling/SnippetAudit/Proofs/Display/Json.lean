import SnippetAudit.Display.Render
import SnippetAudit.Proofs.Archive.Line

/-!
JSON that is shown, read again. What a reader makes of it is what was shown: a single report, or a
list of archived reports of any length.
-/

namespace SnippetAudit

open Data
open Json (Carried)

/-- The report that a JSON text stands for. -/
def Report.ofJson? (text : String) : Option Report :=
  Json.read text >>= ofData?

/-- The archived reports that a JSON text stands for, which must be a list of them. -/
def ArchiveEntry.listOfJson? (text : String) : Option (List ArchiveEntry) := do
  let items ← Json.read text >>= list?
  items.mapM ofData?

theorem Report.ofData?_toData {report : Report} (storable : report.Storable) :
    ofData? report.toData = some report :=
  readFrom?_of_fields .direct storable (fields?_of_once rfl)

theorem Report.carried_toData {report : Report} (storable : report.Storable) (depth : Nat) :
    Carried (depth + 4) report.toData :=
  .table (carried_members storable depth)

/-- What is shown as JSON reads as the data it was written from, the newline behind it aside. -/
theorem Exhibit.read_json {exhibit : Exhibit} (carried : Carried Json.maxDepth exhibit.toData)
    (colors : Bool) : Json.read (exhibit.render .json colors) = some exhibit.toData := by
  refine Json.read_print_append carried .spread "\n" fun c member => ?_
  rw [List.mem_singleton.mp member]
  rfl

theorem Report.ofJson?_render {report : Report} (storable : report.Storable) (colors : Bool) :
    ofJson? ((Exhibit.report report).render .json colors) = some report := by
  have carried : Carried Json.maxDepth (Exhibit.report report).toData :=
    carried_toData storable 124
  rw [ofJson?, Exhibit.read_json carried colors, Option.bind_eq_bind, Option.bind_some]
  exact ofData?_toData storable

theorem ArchiveEntry.listOfJson?_render {entries : List ArchiveEntry}
    (storable : ∀ entry ∈ entries, entry.Storable) (colors : Bool) :
    listOfJson? ((Exhibit.history entries).render .json colors) = some entries := by
  have carried : Carried Json.maxDepth (Exhibit.history entries).toData := by
    refine .list fun item member => ?_
    obtain ⟨entry, listed, rfl⟩ := List.mem_map.mp member
    exact carried_toData (storable entry listed) 123
  have back : (entries.map toData).mapM ofData? = some entries :=
    mapM_map_eq_some fun entry member => ofData?_toData (storable entry member)
  rw [listOfJson?, Exhibit.read_json carried colors]
  exact back

/-- Shown as JSON, reports lose nothing: neither a single one, nor any number of archived ones. -/
theorem json_reads_back :
    (∀ (report : Report) (colors : Bool), report.Storable →
      Report.ofJson? ((Exhibit.report report).render .json colors) = some report) ∧
    (∀ (entries : List ArchiveEntry) (colors : Bool), (∀ entry ∈ entries, entry.Storable) →
      ArchiveEntry.listOfJson? ((Exhibit.history entries).render .json colors) = some entries) :=
  ⟨fun _ colors storable => Report.ofJson?_render storable colors,
    fun _ colors storable => ArchiveEntry.listOfJson?_render storable colors⟩

/-- A report with the greatest numbers its type can hold, and texts that have to be escaped. -/
def extremeReport : Report :=
  ⟨4294967295, .poorQuality,
    ⟨18446744073709551615, 33.25, 0, 2.5, 4294967295, .exponentialOrFactorial, .linearithmic⟩,
    [⟨.info, "\"quoted\", C:\\temp,\n\x07\u00e9\u2028", 0, .logicalForElse⟩,
      ⟨.critical, "", 18446744073709551615, .unsafeEval⟩]⟩

def extremeEntries : List ArchiveEntry :=
  [.make "a\r\n\x00" extremeReport ⟨-62167219200, 0⟩, .make "" extremeReport ⟨253402300799, 999999999⟩]

theorem extremeReport_storable : extremeReport.Storable := by
  refine ⟨by decide, by decide, by decide +kernel, by decide, by decide +kernel, by decide, ?_⟩
  intro issue member
  simp only [extremeReport, List.mem_cons, List.not_mem_nil, or_false] at member
  rcases member with rfl | rfl <;> decide

theorem extremeEntries_storable : ∀ entry ∈ extremeEntries, entry.Storable := by
  intro entry member
  simp only [extremeEntries, List.mem_cons, List.not_mem_nil, or_false] at member
  rcases member with rfl | rfl
  · exact ⟨extremeReport_storable, by decide +kernel⟩
  · exact ⟨extremeReport_storable, by decide +kernel⟩

theorem extreme_json_reads_back :
    extremeReport.Storable ∧ (∀ entry ∈ extremeEntries, entry.Storable) ∧
      Report.ofJson? ((Exhibit.report extremeReport).render .json false) = some extremeReport ∧
      ArchiveEntry.listOfJson? ((Exhibit.history extremeEntries).render .json true) =
        some extremeEntries :=
  ⟨extremeReport_storable, extremeEntries_storable,
    json_reads_back.1 extremeReport false extremeReport_storable,
    json_reads_back.2 extremeEntries true extremeEntries_storable⟩

end SnippetAudit
