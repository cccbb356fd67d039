import Mathlib.Data.List.Forall2
import Mathlib.Data.List.TakeWhile
import SnippetAudit.Proofs.Text.LineEnding
import SnippetAudit.Span

/-!
Blocks without the indentation that their lines share. How much is shared is found on lines without
carriage returns at their ends, and taken from lines that have them; but a line that is not blank is
indented alike with a return and without, and a blank line has no say in what is shared.
-/

namespace SnippetAudit

open Text

namespace Text

variable {line text : List Char}

theorem dropReturn_cases (line : List Char) :
    dropReturn line = line ∨ line = dropReturn line ++ ['\r'] := by
  rw [dropReturn]
  split
  · rename_i last
    exact Or.inr (List.dropLast_append_getLast? '\r' last).symm
  · exact Or.inl rfl

theorem isBlankLine_dropReturn (line : List Char) :
    isBlankLine (dropReturn line) = isBlankLine line := by
  rcases dropReturn_cases line with same | ended
  · rw [same]
  · rw [← isBlankLine_append_return, ← ended]

theorem indent_dropReturn (filled : isBlankLine line = false) :
    indent (dropReturn line) = indent line := by
  rcases dropReturn_cases line with same | ended
  · rw [same]
  · rw [← isBlankLine_dropReturn] at filled
    rw [indent, ← takeWhile_isBlank_append_return filled, ← ended, indent]

/-- The lines that are not blank are indented alike, whether line ends are cut off or not. -/
theorem map_indent_endedLines (text : List Char) :
    ((endedLines text).filter (!isBlankLine ·)).map indent =
      ((lines text).filter (!isBlankLine ·)).map indent := by
  obtain ⟨front, last, cut⟩ : ∃ front last, lines text = front ++ [last] :=
    ⟨_, _, (List.dropLast_append_getLast (pieces_ne_nil '\n' text)).symm⟩
  have kept : ((front.map dropReturn).filter (!isBlankLine ·)).map indent =
      (front.filter (!isBlankLine ·)).map indent := by
    rw [List.filter_map, List.map_map]
    simp only [Function.comp_def, isBlankLine_dropReturn]
    refine List.map_congr_left fun line member => ?_
    exact indent_dropReturn (by simpa using (List.mem_filter.mp member).2)
  have final : ((some last).filter fun line => !line.isEmpty).toList.filter (!isBlankLine ·) =
      [last].filter (!isBlankLine ·) := by
    cases last <;> rfl
  simp only [endedLines, cut, List.dropLast_concat, List.getLast?_concat, List.filter_append,
    List.map_append, kept, final]

theorem indent_le_length (line : List Char) : indent line ≤ line.length :=
  (List.takeWhile_prefix isBlank).length_le

theorem indent_of_isBlankLine (blank : isBlankLine line = true) : indent line = line.length := by
  rw [indent, List.takeWhile_eq_self_iff.mpr (List.all_eq_true.mp blank)]

/-- The characters of the indentation are blank. -/
theorem isBlank_of_mem_take {count : Nat} {c : Char} (within : count ≤ indent line)
    (member : c ∈ line.take count) : isBlank c = true := by
  have part : line.take count <+: line.takeWhile isBlank :=
    List.prefix_of_prefix_length_le (List.take_prefix _ _) (List.takeWhile_prefix isBlank)
      (Nat.le_trans (List.length_take_le _ _) within)
  exact List.all_eq_true.mp List.all_takeWhile c (part.subset member)

/-- Without its indentation a line that is not blank begins with a character that is not. -/
theorem exists_head?_drop_indent (filled : isBlankLine line = false) :
    ∃ c ∈ (line.drop (indent line)).head?, isBlank c = false := by
  have rest : line.drop (indent line) = line.dropWhile isBlank := by
    have behind := @List.drop_left _ (line.takeWhile isBlank) (line.dropWhile isBlank)
    rwa [List.takeWhile_append_dropWhile] at behind
  cases behind : line.dropWhile isBlank with
  | nil =>
    rw [isBlankLine, List.all_eq_true.mpr (dropWhile_eq_nil_iff.mp behind)] at filled
    cases filled
  | cons c more =>
    refine ⟨c, by rw [rest, behind]; rfl, ?_⟩
    exact stops_dropWhile line c (by rw [behind]; rfl)

end Text

namespace Span

variable {block line : List Char}

theorem sharedIndent_eq (block : List Char) :
    sharedIndent block = ((((lines block).filter (!isBlankLine ·)).map indent).min?).getD 0 := by
  rw [sharedIndent, map_indent_endedLines]

theorem sharedIndent_of_blank (blank : ∀ line ∈ lines block, isBlankLine line = true) :
    sharedIndent block = 0 := by
  have none : (lines block).filter (!isBlankLine ·) = [] := by
    rw [List.filter_eq_nil_iff]
    intro line listed
    simp [blank line listed]
  rw [sharedIndent_eq, none]
  rfl

/-- Some line that is not blank is indented no further than what is shared, and none less far. -/
theorem sharedIndent_least (listed : line ∈ lines block) (filled : isBlankLine line = false) :
    sharedIndent block ≤ indent line ∧
      ∃ other ∈ lines block, isBlankLine other = false ∧ indent other = sharedIndent block := by
  have member : indent line ∈ ((lines block).filter (!isBlankLine ·)).map indent :=
    List.mem_map_of_mem (List.mem_filter.mpr ⟨listed, by rw [filled]; rfl⟩)
  rw [sharedIndent_eq]
  cases least : (((lines block).filter (!isBlankLine ·)).map indent).min? with
  | none =>
    rw [List.min?_eq_none_iff.mp least] at member
    exact absurd member List.not_mem_nil
  | some shared =>
    obtain ⟨attained, lower⟩ := List.min?_eq_some_iff.mp least
    obtain ⟨other, inFilled, same⟩ := List.mem_map.mp attained
    obtain ⟨inLines, solid⟩ := List.mem_filter.mp inFilled
    exact ⟨lower _ member, other, inLines, by simpa using solid, same⟩

/-- A line without the indentation that a block shares, as far as the line has it. -/
def outdent (shared : Nat) (line : List Char) : List Char :=
  line.drop (min (indent line) shared)

theorem outdent_zero (line : List Char) : outdent 0 line = line := by
  rw [outdent, Nat.min_zero, List.drop_zero]

/-- What a line loses is part of the blanks it starts with. -/
theorem mem_outdent_iff {c : Char} (solid : isBlank c = false) (shared : Nat) :
    c ∈ outdent shared line ↔ c ∈ line := by
  constructor
  · exact fun member => List.mem_of_mem_drop member
  · intro member
    rw [← List.take_append_drop (min (indent line) shared) line] at member
    rcases List.mem_append.mp member with lost | left
    · rw [isBlank_of_mem_take (Nat.min_le_left _ _) lost] at solid
      cases solid
    · exact left

theorem lines_dedent (block : List Char) :
    lines (dedent block) = (lines block).map (outdent (sharedIndent block)) := by
  rw [dedent]
  split
  · rename_i none
    rw [none, List.map_congr_left fun line _ => outdent_zero line, List.map_id']
  · refine pieces_join ?_ ?_
    · exact fun none => pieces_ne_nil '\n' block (List.map_eq_nil_iff.mp none)
    · intro shorter listed
      obtain ⟨line, inBlock, rfl⟩ := List.mem_map.mp listed
      exact fun member => separator_not_mem_pieces inBlock (List.mem_of_mem_drop member)

/-- What a line loses when a number of characters is shared: a line that is not blank loses that
many, all of them blank; a blank one loses no more than it has. -/
def Outdents (shared : Nat) (line shorter : List Char) : Prop :=
  ∃ lost, line = lost ++ shorter ∧
    if isBlankLine line then lost.length = min shared line.length
    else lost.length = shared ∧ ∀ c ∈ lost, isBlank c = true

theorem outdents_outdent (listed : line ∈ lines block) :
    Outdents (sharedIndent block) line (outdent (sharedIndent block) line) := by
  refine ⟨line.take (min (indent line) (sharedIndent block)),
    (List.take_append_drop _ line).symm, ?_⟩
  have reaches := indent_le_length line
  rw [List.length_take]
  split
  · rename_i blank
    rw [indent_of_isBlankLine blank]
    omega
  · rename_i filled
    have shared := (sharedIndent_least listed (Bool.eq_false_iff.mpr filled)).1
    exact ⟨by omega, fun c => isBlank_of_mem_take (Nat.min_le_left _ _)⟩

/-- The line indented least begins with its first character that is not blank. -/
theorem exists_unindented (listed : line ∈ lines block) (filled : isBlankLine line = false) :
    ∃ shorter ∈ lines (dedent block), ∃ c ∈ shorter.head?, isBlank c = false := by
  obtain ⟨-, other, inBlock, solid, least⟩ := sharedIndent_least listed filled
  rw [lines_dedent]
  refine ⟨_, List.mem_map_of_mem inBlock, ?_⟩
  rw [outdent, ← least, Nat.min_self]
  exact exists_head?_drop_indent solid

/-- Nothing is shared by the lines of a dedented block. -/
theorem sharedIndent_dedent (block : List Char) : sharedIndent (dedent block) = 0 := by
  by_cases blank : ∀ line ∈ lines block, isBlankLine line = true
  · refine sharedIndent_of_blank fun shorter listed => ?_
    rw [lines_dedent] at listed
    obtain ⟨line, inBlock, rfl⟩ := List.mem_map.mp listed
    have all := List.all_eq_true.mp (blank line inBlock)
    exact List.all_eq_true.mpr fun c member => all c (List.mem_of_mem_drop member)
  · obtain ⟨line, listed, filled⟩ : ∃ line ∈ lines block, isBlankLine line = false := by
      simpa using blank
    obtain ⟨shorter, inDedented, c, first, solid⟩ := exists_unindented listed filled
    obtain ⟨more, rfl⟩ := List.head?_eq_some_iff.mp first
    have bound := (sharedIndent_least inDedented (by simp [isBlankLine, solid])).1
    rw [indent, List.takeWhile_cons_of_neg (by simp [solid])] at bound
    exact Nat.le_zero.mp bound

theorem dedent_of_sharedIndent_eq_zero (none : sharedIndent block = 0) : dedent block = block := by
  rw [dedent, if_pos none]

/-- A dedented block has as many lines as before. Each line that is not blank has lost the same
number of characters, all of them blank, and each blank line has lost that many or all that it had.
If some line is not blank, then one such line begins with a character that is not blank. Dedenting the
block once more changes nothing. -/
theorem dedent_exact (block : List Char) :
    (lines (dedent block)).length = (lines block).length ∧
      (∃ shared, List.Forall₂ (Outdents shared) (lines block) (lines (dedent block))) ∧
      ((∃ line ∈ lines block, isBlankLine line = false) →
        ∃ line ∈ lines (dedent block), ∃ c ∈ line.head?, isBlank c = false) ∧
      dedent (dedent block) = dedent block := by
  refine ⟨?_, ⟨sharedIndent block, ?_⟩, ?_, ?_⟩
  · rw [lines_dedent, List.length_map]
  · rw [lines_dedent, List.forall₂_map_right_iff, List.forall₂_same]
    exact fun line listed => outdents_outdent listed
  · rintro ⟨line, listed, filled⟩
    exact exists_unindented listed filled
  · exact dedent_of_sharedIndent_eq_zero (sharedIndent_dedent block)

example : dedent "\n    a\n      b\n    c".toList = "\na\n  b\nc".toList := by decide

end Span

end SnippetAudit
