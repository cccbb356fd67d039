import SnippetAudit.Proofs.Archive.Line

/-!
Texts of archive files. Each line of a text stands for an entry or for none by itself, and a line
that is no entry stays none when a carriage return at its end is dropped.
-/

namespace SnippetAudit

open Text
open Json (isNumeric)

def ArchiveEntry.ofLineOrBlank? (line : List Char) : Option ArchiveEntry :=
  if isBlankLine line then none else ofLine? (String.ofList line)

/-- A line that someone else has written: it is blank, or it does not read as an entry. -/
def IsForeign (line : List Char) : Prop :=
  isBlankLine line = true ∨ ArchiveEntry.ofLine? (String.ofList line) = none

theorem filterMap_zipIdx {α β : Type} (blank : α → Bool) (value? : α → Option β) (lines : List α)
    (start : Nat) :
    (((lines.zipIdx start).filter fun (line, _) => !blank line).map
      fun (line, index) => (index + 1, value? line)).filterMap (·.2) =
      lines.filterMap fun line => if blank line then none else value? line := by
  induction lines generalizing start with
  | nil => rfl
  | cons line lines ih =>
    have later := ih (start + 1)
    cases gap : blank line with
    | true =>
      rw [List.zipIdx_cons, List.filter_cons_of_neg (by simp [gap]), later,
        List.filterMap_cons_none (by simp [gap])]
    | false =>
      rw [List.zipIdx_cons, List.filter_cons_of_pos (by simp [gap]), List.map_cons,
        List.filterMap_cons, List.filterMap_cons, later, gap]
      rfl

namespace ArchiveFile

theorem entriesOf_eq (text : String) :
    entriesOf text = (endedLines text.toList).filterMap ArchiveEntry.ofLineOrBlank? := by
  exact filterMap_zipIdx isBlankLine (fun line => ArchiveEntry.ofLine? (String.ofList line)) _ 0

/-- The first line of a text and the rest of it are listed each by itself. -/
theorem entriesOf_append_newline {front : List Char} (plain : '\n' ∉ front) (back : List Char) :
    entriesOf (String.ofList (front ++ '\n' :: back)) =
      (ArchiveEntry.ofLineOrBlank? (dropReturn front)).toList ++
        entriesOf (String.ofList back) := by
  rw [entriesOf_eq, entriesOf_eq, String.toList_ofList, String.toList_ofList,
    endedLines_append_newline plain, List.filterMap_cons]
  cases ArchiveEntry.ofLineOrBlank? (dropReturn front) <;> rfl

end ArchiveFile

/-- A text that reads as a value still does with a carriage return behind it. -/
theorem Json.read_append_return {line : List Char} {value : Data}
    (found : Json.read (String.ofList line) = some value) :
    Json.read (String.ofList (line ++ ['\r'])) = some value := by
  obtain ⟨rest, first, gap⟩ := Json.exists_of_read found
  rw [String.toList_ofList] at first
  have stops : Stops isNumeric ['\r'] := stops_cons (by decide)
  have longer := (Json.lasts stops _).1 (2 * (line ++ ['\r']).length + 2) _ Json.maxDepth _ _ _ first
    (by rw [List.length_append]; omega) (Nat.le_refl _)
  have blank : Json.skipGap (rest ++ ['\r']) = [] := by
    rw [Json.skipGap_eq_nil_iff] at gap ⊢
    intro c member
    rcases List.mem_append.mp member with before | last
    · exact gap c before
    · rw [List.mem_singleton.mp last]
      rfl
  rw [Json.read, String.toList_ofList]
  simp only [longer, blank]
  rfl

theorem IsForeign.ofLineOrBlank? {line : List Char} (foreign : IsForeign line) :
    ArchiveEntry.ofLineOrBlank? line = none := by
  unfold ArchiveEntry.ofLineOrBlank?
  split
  · rfl
  · rename_i visible
    exact foreign.resolve_left visible

theorem IsForeign.dropReturn {line : List Char} (foreign : IsForeign line) :
    IsForeign (dropReturn line) := by
  unfold Text.dropReturn
  split
  · rename_i last
    obtain ⟨front, rfl⟩ := List.getLast?_eq_some_iff.mp last
    rw [List.dropLast_concat]
    rcases foreign with blank | unread
    · rw [isBlankLine, List.all_append, Bool.and_eq_true] at blank
      exact Or.inl blank.1
    · refine Or.inr ?_
      cases found : Json.read (String.ofList front) with
      | none => rw [ArchiveEntry.ofLine?, found]; rfl
      | some value =>
        rw [ArchiveEntry.ofLine?, Json.read_append_return found] at unread
        rw [ArchiveEntry.ofLine?, found]
        exact unread
  · exact foreign

theorem ArchiveEntry.ofLineOrBlank?_line {entry : ArchiveEntry} (storable : entry.Storable) :
    ArchiveEntry.ofLineOrBlank? entry.line.toList = some entry := by
  rw [ofLineOrBlank?, isBlankLine_line, String.ofList_toList]
  exact ofLine?_line storable

end SnippetAudit
