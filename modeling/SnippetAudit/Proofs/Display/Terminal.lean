import Mathlib.Data.List.Forall2
import SnippetAudit.Display.Render
import SnippetAudit.Proofs.Decimal.Layout
import SnippetAudit.Proofs.Display.Ink

/-!
What a terminal shows with colours and without. Every line is put together from the same parts with
colours and without, and paint goes around parts that are padded already; so without the escape
sequences the one text is the other, as long as no escape character comes from what is shown.
-/

namespace SnippetAudit

open Text

theorem unescaped_toString (n : Nat) : Unescaped (toString n) :=
  not_mem_toString (by decide) n

theorem Decimal.Figures.unescaped {text : String} (figures : Figures text) : Unescaped text := by
  intro member
  cases figures _ member

theorem Decimal.unescaped_plain (x : Float) : Unescaped (Layout.plain.text x) := by
  rcases Layout.plain.text_cases x with figures | undefined | ⟨negative, infinite⟩
  · exact figures.unescaped
  · rw [undefined]
    decide
  · rw [infinite]
    cases negative <;> decide

theorem Decimal.unescaped_tenths (x : Float) : Unescaped (tenths x) := by
  have signs (negative : Bool) : Unescaped (sign negative) := (figures_sign negative).unescaped
  unfold tenths
  split
  · decide
  · exact (signs _).append (by decide)
  · exact (((signs _).append (unescaped_toString _)).append (by decide)).append
      (unescaped_toString _)

theorem unescaped_padded (width n : Nat) : Unescaped (padded width n) := by
  refine unescaped_ofList fun member => ?_
  rcases List.mem_append.mp member with zero | digit
  · cases (List.mem_replicate.mp zero).2
  · cases isDigit_of_mem_toDigits digit

theorem Instant.unescaped_shown (instant : Instant) : Unescaped instant.shown := by
  have year (year : Int) : Unescaped (yearText year) := by
    have mark : Unescaped (if year < 0 then "-" else "+") := by split <;> decide
    unfold yearText
    split
    · exact unescaped_padded _ _
    · exact mark.append (unescaped_padded _ _)
  have dash : Unescaped "-" := by decide
  have colon : Unescaped ":" := by decide
  have date : Unescaped (dateText instant.date) :=
    ((((year _).append dash).append (unescaped_padded _ _)).append dash).append (unescaped_padded _ _)
  have clock : Unescaped instant.clockText :=
    ((((unescaped_padded _ _).append colon).append (unescaped_padded _ _)).append colon).append
      (unescaped_padded _ _)
  exact (date.append (by decide)).append clock

theorem unescaped_padLeft (width : Nat) {text : String} (plain : Unescaped text) :
    Unescaped (padLeft width text) := by
  refine (unescaped_ofList fun member => ?_).append plain
  cases (List.mem_replicate.mp member).2

theorem ended_cons (line : String) (later : List String) :
    ended (line :: later) = line ++ "\n" ++ ended later := by
  simp [ended]

theorem Status.unescaped_name (status : Status) : Unescaped status.name := by
  cases status <;> decide

theorem Growth.unescaped_label (growth : Growth) : Unescaped growth.label := by
  cases growth <;> decide

namespace Terminal

open Ink

variable (colors : Bool)

theorem stripsTo_graded (score : Nat) {text : String} (plain : Unescaped text) :
    StripsTo (graded colors score text) (graded false score text) :=
  stripsTo_paint colors _ plain

theorem stripsTo_tag (severity : Severity) :
    StripsTo (tag colors severity) (tag false severity) := by
  refine stripsTo_paint colors _ ?_
  cases severity <;> decide +kernel

theorem stripsTo_issueLine {issue : Issue} (plain : Unescaped issue.description) :
    StripsTo (issueLine colors issue) (issueLine false issue) := by
  have start : StripsTo ("  " ++ tag colors issue.severity) ("  " ++ tag false issue.severity) :=
    (stripsTo_literal (by decide)).append (stripsTo_tag colors issue.severity)
  exact (((start.append_literal (by decide)).append_plain (unescaped_toString _)).append_literal
    (by decide)).append_plain plain

/-- What holds of each line that is shown holds of the lines together. -/
theorem forall₂_map {shown : List α} {coloured plain : α → String}
    (each : ∀ one ∈ shown, StripsTo (coloured one) (plain one)) :
    List.Forall₂ StripsTo (shown.map coloured) (shown.map plain) := by
  rw [List.forall₂_map_left_iff, List.forall₂_map_right_iff, List.forall₂_same]
  exact each

theorem stripsTo_reportLines {report : Report}
    (plain : ∀ issue ∈ report.issues, Unescaped issue.description) :
    List.Forall₂ StripsTo (reportLines colors report) (reportLines false report) := by
  have number (n : Nat) := unescaped_toString n
  have measure {label : List Char} {value : String} (plain : '\x1b' ∉ label)
      (shown : Unescaped value) :
      StripsTo (String.ofList label ++ value) (String.ofList label ++ value) :=
    stripsTo_self ((unescaped_ofList plain).append shown)
  refine .cons ?title <| .cons ?underline <| .cons ?verdict <| .cons ?gap <| .cons ?code <|
    .cons ?share <| .cons ?decisions <| .cons ?readability <| .cons ?maintainability <|
    .cons ?time <| .cons ?space <| .cons ?behind ?issues
  case title => exact stripsTo_paint colors _ (unescaped_ofList (by decide))
  case underline => exact stripsTo_paint colors _ (unescaped_ofList (by decide))
  case verdict =>
    have points : Unescaped (toString report.score ++ "/100") :=
      (number _).append (unescaped_ofList (by decide))
    have first := stripsTo_graded colors report.score points
    have second := stripsTo_graded colors report.score report.status.unescaped_name
    exact ((((stripsTo_literal (by decide)).append first).append_literal (by decide)).append
      second).append_literal (by decide)
  case gap => exact stripsTo_literal (by decide)
  case code => exact measure (by decide) (number _)
  case share =>
    exact (measure (by decide) (Decimal.unescaped_plain _)).append_literal (by decide)
  case decisions => exact measure (by decide) (number _)
  case readability =>
    exact (measure (by decide) (Decimal.unescaped_tenths _)).append_literal (by decide)
  case maintainability => exact (measure (by decide) (number _)).append_literal (by decide)
  case time => exact measure (by decide) (Growth.unescaped_label _)
  case space => exact measure (by decide) (Growth.unescaped_label _)
  case behind => exact stripsTo_literal (by decide)
  case issues =>
    split
    · have mark := stripsTo_paint colors [.green] (show Unescaped "✓" by decide)
      exact .cons (mark.append_literal (by decide)) .nil
    · exact .cons ((measure (by decide) (number _)).append_literal (by decide))
        (forall₂_map fun issue member => stripsTo_issueLine colors (plain issue member))

/-- The texts of a file that its line shows as they were given. -/
def givenIn (entry : BatchEntry) : List String :=
  entry.path.text :: match entry.outcome with
    | .analyzed _ => []
    | .rejected reason => reason.toList

theorem stripsTo_batchLine {entry : BatchEntry} (plain : ∀ text ∈ givenIn entry, Unescaped text) :
    StripsTo (batchLine colors entry) (batchLine false entry) := by
  obtain ⟨path, others⟩ := List.forall_mem_cons.mp plain
  unfold batchLine
  split
  · rename_i report analyzed
    have score := stripsTo_graded colors report.score
      (unescaped_padLeft 5 (unescaped_toString report.score))
    have status := stripsTo_graded colors report.score report.status.unescaped_name
    have gap : Unescaped "  " := unescaped_ofList (by decide)
    have verdict := (score.append_plain gap).append status
    exact ((((verdict.append_literal (by decide)).append_plain path).append_literal
      (by decide)).append_plain (unescaped_toString _)).append_literal (by decide)
  · rename_i reason rejected
    have dash : Unescaped (padLeft 5 "-") := unescaped_padLeft 5 (by decide)
    have why : Unescaped (reason.getD unknownReason) := by
      cases reason with
      | none => decide
      | some given => exact others given (by simp [rejected])
    have mark : StripsTo (paint colors [.red] "rejected") (paint false [.red] "rejected") :=
      stripsTo_paint colors _ (unescaped_ofList (by decide))
    have start := (stripsTo_self dash).append_literal (show '\x1b' ∉ [' ', ' '] by decide)
    exact ((((start.append mark).append_literal (by decide)).append_plain path).append_literal
      (by decide)).append_plain why

theorem stripsTo_batchLines {entries : List BatchEntry}
    (plain : ∀ entry ∈ entries, ∀ text ∈ givenIn entry, Unescaped text) :
    List.Forall₂ StripsTo (batchLines colors entries) (batchLines false entries) := by
  have number (n : Nat) := unescaped_toString n
  refine List.rel_append (forall₂_map fun entry member =>
    stripsTo_batchLine colors (plain entry member)) (.cons (stripsTo_self ?_) .nil)
  exact (((number _).append (unescaped_ofList (by decide))).append (number _)).append
    (unescaped_ofList (by decide))

theorem stripsTo_historyLine {entry : ArchiveEntry} (plain : Unescaped entry.id) :
    StripsTo (historyLine colors entry) (historyLine false entry) := by
  have id := stripsTo_paint colors [.dimmed] plain
  have score := stripsTo_graded colors entry.report.score
    (unescaped_padLeft 3 (unescaped_toString entry.report.score))
  have gap : Unescaped "  " := unescaped_ofList (by decide)
  have first := ((id.append_plain gap).append_plain entry.instant.unescaped_shown).append_plain gap
  exact ((first.append score).append_literal (by decide)).append_plain
    entry.report.status.unescaped_name

theorem stripsTo_historyLines {entries : List ArchiveEntry}
    (plain : ∀ entry ∈ entries, Unescaped entry.id) :
    List.Forall₂ StripsTo (historyLines colors entries) (historyLines false entries) := by
  unfold historyLines
  split
  · exact .cons (stripsTo_literal (by decide)) .nil
  · exact forall₂_map fun entry member => stripsTo_historyLine colors (plain entry member)

/-- The texts of an exhibit that a terminal shows as they were given. -/
def given : Exhibit → List String
  | .report report => report.issues.map (·.description)
  | .batch entries => entries.flatMap givenIn
  | .history entries => entries.map (·.id)

theorem stripsTo_lines {exhibit : Exhibit} (plain : ∀ text ∈ given exhibit, Unescaped text) :
    List.Forall₂ StripsTo (lines colors exhibit) (lines false exhibit) := by
  cases exhibit with
  | report report =>
    exact stripsTo_reportLines colors fun issue member => plain _ (List.mem_map_of_mem member)
  | batch entries =>
    exact stripsTo_batchLines colors fun entry member text inEntry =>
      plain text (List.mem_flatMap.mpr ⟨entry, member, inEntry⟩)
  | history entries =>
    exact stripsTo_historyLines colors fun entry member => plain _ (List.mem_map_of_mem member)

theorem stripsTo_ended {coloured plain : List String}
    (each : List.Forall₂ StripsTo coloured plain) : StripsTo (ended coloured) (ended plain) := by
  induction each with
  | nil => exact stripsTo_literal (by decide)
  | cons first _ ih =>
    rw [ended_cons, ended_cons]
    exact (first.append_literal (by decide)).append ih

/-- Colours change nothing of the text. Without its escape sequences the output with colours is the
output without them, padding included, and the output without colours has none to begin with. -/
theorem strip_render {exhibit : Exhibit} (plain : ∀ text ∈ given exhibit, Unescaped text) :
    strip (exhibit.render .terminal colors).toList = (exhibit.render .terminal false).toList :=
  (stripsTo_ended (stripsTo_lines colors plain)).strip_eq

/-- A batch with a file that was analysed and one that was not. -/
def sampleBatch : Exhibit :=
  .batch [⟨⟨"a.py"⟩, .analyzed ⟨60, .needsImprovement, default, []⟩⟩,
    ⟨⟨"b.py"⟩, .rejected (some "empty")⟩]

/-- It is shown with colours, and without these with its numbers at the right. -/
theorem strip_render_sampleBatch :
    (∀ text ∈ given sampleBatch, Unescaped text) ∧
      ¬Unescaped (sampleBatch.render .terminal true) ∧
      strip (sampleBatch.render .terminal true).toList =
        ("   60  Needs Improvement  a.py (0 issues)\n    -  rejected  b.py: empty\n" ++
          "1 of 2 files analyzed\n").toList := by
  have plain : ∀ text ∈ given sampleBatch, Unescaped text := by decide
  have shown : sampleBatch.render .terminal false =
      "   60  Needs Improvement  a.py (0 issues)\n    -  rejected  b.py: empty\n" ++
        "1 of 2 files analyzed\n" := by
    decide +kernel
  have coloured : ¬Unescaped (sampleBatch.render .terminal true) := by decide +kernel
  refine ⟨plain, coloured, ?_⟩
  rw [strip_render true plain, shown]

end Terminal

end SnippetAudit
