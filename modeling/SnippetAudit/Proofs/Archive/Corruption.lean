import SnippetAudit.Proofs.Archive.Writings
import SnippetAudit.Proofs.Text.Encoding

/-!
Archive files with corrupt lines. A line of text that is no entry costs nothing but itself, wherever
it stands. A line of bytes that are no text costs all the entries: a file is read as one text before
it is cut into lines.
-/

namespace SnippetAudit

open Text

variable {s : Surroundings} {path : Path} {line : ByteArray} {lines : List ByteArray}

/-- The entry that the bytes of one line stand for, looked at by themselves. -/
def ArchiveEntry.ofBytes? (line : ByteArray) : Option ArchiveEntry :=
  (String.fromUTF8? line).bind fun text => ofLineOrBlank? (dropReturn text.toList)

theorem ArchiveEntry.ofBytes?_line {entry : ArchiveEntry} (storable : entry.Storable) :
    ofBytes? entry.line.toUTF8 = some entry := by
  rw [ofBytes?, ArchiveFile.fromUTF8?_toUTF8, Option.bind_some, dropReturn_line storable]
  exact ofLineOrBlank?_line storable

theorem ArchiveEntry.newline_not_mem_bytes {entry : ArchiveEntry} (storable : entry.Storable) :
    (10 : UInt8) ∉ entry.line.toUTF8.data :=
  fun member => newline_not_mem_line storable (newline_mem_toUTF8_iff.mp member)

theorem ArchiveEntry.ofBytes?_of_noText (noText : ¬line.IsValidUTF8) : ofBytes? line = none := by
  have undecoded : String.fromUTF8? line = none := dif_neg noText
  rw [ofBytes?, undecoded, Option.bind_none]

namespace ArchiveFile

/-- The bytes of lines, each with a newline behind it. -/
def ofLines : List ByteArray → ByteArray
  | [] => .empty
  | line :: lines => line ++ "\n".toUTF8 ++ ofLines lines

/-- A file is a text if and only if each of its lines is. -/
theorem isValidUTF8_ofLines_iff :
    (ofLines lines).IsValidUTF8 ↔ ∀ line ∈ lines, line.IsValidUTF8 := by
  induction lines with
  | nil => exact iff_of_true ByteArray.isValidUTF8_empty fun _ member => nomatch member
  | cons line lines ih =>
    rw [ofLines, isValidUTF8_append_newline_iff, ih, List.forall_mem_cons]

/-- The entries of a file of text are those of its lines, each looked at by itself. -/
theorem exists_entriesOf_ofLines (plain : ∀ line ∈ lines, 10 ∉ line.data)
    (valid : ∀ line ∈ lines, line.IsValidUTF8) :
    ∃ text : String, ofLines lines = text.toUTF8 ∧
      entriesOf text = lines.filterMap ArchiveEntry.ofBytes? := by
  induction lines with
  | nil => exact ⟨"", rfl, rfl⟩
  | cons line lines ih =>
    obtain ⟨plainLine, plainLines⟩ := List.forall_mem_cons.mp plain
    obtain ⟨validLine, validLines⟩ := List.forall_mem_cons.mp valid
    obtain ⟨rest, restBytes, entries⟩ := ih plainLines validLines
    obtain ⟨first, rfl⟩ : ∃ first : String, first.toUTF8 = line := ⟨⟨line, validLine⟩, rfl⟩
    have oneLine : '\n' ∉ first.toList := fun member =>
      plainLine (newline_mem_toUTF8_iff.mpr member)
    have whole : first ++ "\n" ++ rest = String.ofList (first.toList ++ '\n' :: rest.toList) := by
      apply String.toList_inj.mp
      simp
    refine ⟨first ++ "\n" ++ rest, ?_, ?_⟩
    · rw [ofLines, restBytes]
      simp only [String.toUTF8_eq_toByteArray, String.toByteArray_append]
    · rw [whole, entriesOf_append_newline oneLine, String.ofList_toList, entries,
        List.filterMap_cons, ArchiveEntry.ofBytes?, fromUTF8?_toUTF8, Option.bind_some]
      cases ArchiveEntry.ofLineOrBlank? (dropReturn first.toList) <;> rfl

end ArchiveFile

/-- A file of any lines of bytes lists the entries of those lines that are one, in their order, as
long as every line is a text. A single line that is none leaves nothing to be listed: it has no entry
itself, but neither are those of the other lines given. -/
theorem list_of_lines {s : Surroundings} {path : Path} {lines : List ByteArray}
    (plain : ∀ line ∈ lines, 10 ∉ line.data)
    (stored : s.disk.read s.folder path = .ok (ArchiveFile.ofLines lines)) :
    ((∀ line ∈ lines, line.IsValidUTF8) → ∃ notices,
      (ArchiveFile.list path : Attempt (StateM Surroundings) _).run s =
        (.ok (lines.filterMap ArchiveEntry.ofBytes?), { s with notices })) ∧
    ((∃ line ∈ lines, ¬line.IsValidUTF8) →
      (ArchiveFile.list path : Attempt (StateM Surroundings) (List ArchiveEntry)).run s =
        (.error (.of (.archive .read .noText)), s)) ∧
    (∀ entry : ArchiveEntry, entry.Storable → 10 ∉ entry.line.toUTF8.data ∧
      ArchiveEntry.ofBytes? entry.line.toUTF8 = some entry) ∧
    ∀ line : ByteArray, ¬line.IsValidUTF8 → ArchiveEntry.ofBytes? line = none := by
  refine ⟨fun valid => ?_, ?_, fun entry storable =>
    ⟨ArchiveEntry.newline_not_mem_bytes storable, ArchiveEntry.ofBytes?_line storable⟩,
    fun line noText => ArchiveEntry.ofBytes?_of_noText noText⟩
  · obtain ⟨text, bytes, entries⟩ := ArchiveFile.exists_entriesOf_ofLines plain valid
    rw [bytes] at stored
    rw [← entries]
    exact ArchiveFile.exists_run_list_of_read stored (ArchiveFile.fromUTF8?_toUTF8 text)
  · rintro ⟨line, member, noText⟩
    have undecoded : String.fromUTF8? (ArchiveFile.ofLines lines) = none :=
      dif_neg fun valid => noText (ArchiveFile.isValidUTF8_ofLines_iff.mp valid line member)
    exact ArchiveFile.run_list_of_read_noText stored undecoded

def sampleEntry : ArchiveEntry :=
  .make "x = 1" sampleReport ⟨1700000000, 123000000⟩

/-- A line of an entry, and a line of a byte that starts no character. -/
def sampleLines : List ByteArray :=
  [sampleEntry.line.toUTF8, ⟨#[255]⟩]

theorem sampleEntry_storable : sampleEntry.Storable :=
  ⟨sampleReport_storable, by decide +kernel⟩

theorem sampleLines_plain : ∀ line ∈ sampleLines, (10 : UInt8) ∉ line.data := by
  intro line member
  rw [sampleLines, List.mem_cons, List.mem_singleton] at member
  rcases member with rfl | rfl
  · exact ArchiveEntry.newline_not_mem_bytes sampleEntry_storable
  · decide +kernel

/-- Any bytes can be those of a file. -/
theorem exists_stored (bytes : ByteArray) :
    ∃ s : Surroundings, s.disk.read s.folder ⟨"r.jsonl"⟩ = .ok bytes := by
  have added := ArchiveFile.added_add ⟨"r.jsonl"⟩ bytes emptyPlace
  cases ran : (ArchiveFile.add ⟨"r.jsonl"⟩ bytes : Attempt (StateM Surroundings) Unit).run
      emptyPlace with
  | mk outcome later =>
    rw [ran] at added
    obtain ⟨rfl, -⟩ := emptyPlace_unhindered.add added
    cases added with
    | everything same whole room holds =>
      have empty : emptyPlace.contents ⟨"r.jsonl"⟩ = .empty := by
        rw [Surroundings.contents, Disk.contents, emptyPlace_free]
      rw [empty, ByteArray.empty_append] at holds
      exact ⟨later, holds.read⟩

/-- An entry is not listed any more when a byte that is no text stands behind its line. -/
theorem list_of_sampleLines :
    (∀ line ∈ sampleLines, (10 : UInt8) ∉ line.data) ∧
      sampleLines.filterMap ArchiveEntry.ofBytes? = [sampleEntry] ∧
      ∃ s : Surroundings, s.disk.read s.folder ⟨"r.jsonl"⟩ = .ok (ArchiveFile.ofLines sampleLines) ∧
        (ArchiveFile.list ⟨"r.jsonl"⟩ : Attempt (StateM Surroundings) (List ArchiveEntry)).run s =
          (.error (.of (.archive .read .noText)), s) := by
  obtain ⟨s, stored⟩ := exists_stored (ArchiveFile.ofLines sampleLines)
  obtain ⟨-, fails, reads, skips⟩ := list_of_lines sampleLines_plain stored
  have noText : ¬(⟨#[255]⟩ : ByteArray).IsValidUTF8 := by decide
  refine ⟨sampleLines_plain, ?_, s, stored, fails ⟨⟨#[255]⟩, ?_, noText⟩⟩
  · rw [sampleLines, List.filterMap_cons, (reads sampleEntry sampleEntry_storable).2,
      List.filterMap_cons, skips _ noText, List.filterMap_nil]
  · exact List.mem_cons_of_mem _ List.mem_cons_self

end SnippetAudit
