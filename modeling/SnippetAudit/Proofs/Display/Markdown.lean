import Mathlib.Data.List.Basic
import SnippetAudit.Display.Render
import SnippetAudit.Proofs.Text.Digit
import SnippetAudit.Proofs.Text.Lines

/-!
Tables in Markdown, read as a reader of Markdown does: a bar ends a cell unless a backslash stands
right before it. The row of a file in a batch has its four cells and no more, wherever the path of the
file has no such bar. Reasons may have any bars, as these are escaped; paths are shown as they are.
-/

namespace SnippetAudit

open Text

/-- Lines that are ended are the lines of the text, and nothing is behind the last of them. -/
theorem lines_ended {found : List String} (plain : ∀ line ∈ found, '\n' ∉ line.toList) :
    Text.lines (ended found).toList = found.map String.toList ++ [[]] := by
  rw [ended, String.toList_join]
  induction found with
  | nil => rfl
  | cons line found ih =>
    obtain ⟨first, others⟩ := List.forall_mem_cons.mp plain
    rw [List.map_cons, List.flatMap_cons, String.toList_append, List.append_assoc]
    exact (pieces_append_separator first).trans (congrArg _ (ih others))

namespace Markdown

/-- A bar that ends a cell: a backslash right before it would escape it. -/
def isBar (before : Option Char) (c : Char) : Bool :=
  c == '|' && before != some '\\'

/-- How many bars of a text end cells, given the character before the text. -/
def bars (before : Option Char) : List Char → Nat
  | [] => 0
  | c :: text => (if isBar before c then 1 else 0) + bars (some c) text

/-- What stands in a text before, between and behind the bars that end cells. -/
def cut (before : Option Char) : List Char → List (List Char)
  | [] => [[]]
  | c :: text =>
    if isBar before c then [] :: cut (some c) text
    else (cut (some c) text).modifyHead (c :: ·)

/-- A cell as it stands between its bars. -/
def padded (text : String) : List Char :=
  ' ' :: (text.toList ++ [' '])

variable {before : Option Char} {text front back : List Char} {cells : List String}

theorem cut_ne_nil (before : Option Char) (text : List Char) : cut before text ≠ [] := by
  induction text generalizing before with
  | nil => exact List.cons_ne_nil [] []
  | cons c text ih =>
    rw [cut]
    split
    · exact List.cons_ne_nil _ _
    · exact fun none => ih (some c) (List.modifyHead_eq_nil_iff.mp none)

theorem length_cut (before : Option Char) (text : List Char) :
    (cut before text).length = bars before text + 1 := by
  induction text generalizing before with
  | nil => rfl
  | cons c text ih =>
    rw [cut, bars]
    split
    · rw [List.length_cons, ih]
      omega
    · rw [List.length_modifyHead, ih]
      omega

theorem cut_of_isBar {c : Char} (bar : isBar before c = true) (text : List Char) :
    cut before (c :: text) = [] :: cut (some c) text := by
  rw [cut, if_pos bar]

theorem cut_of_bars_eq_zero (none : bars before text = 0) : cut before text = [text] := by
  induction text generalizing before with
  | nil => rfl
  | cons c text ih =>
    rw [bars] at none
    have open' : ¬isBar before c = true := by
      intro bar
      rw [if_pos bar] at none
      omega
    rw [if_neg open', Nat.zero_add] at none
    rw [cut, if_neg open', ih none]
    rfl

theorem bars_append (before : Option Char) (front back : List Char) :
    bars before (front ++ back) = bars before front + bars (front.getLast?.or before) back := by
  induction front generalizing before with
  | nil => exact (Nat.zero_add _).symm
  | cons c front ih =>
    rw [List.cons_append, bars, bars, ih, List.getLast?_cons, Nat.add_assoc]
    cases front.getLast? <;> rfl

theorem bars_eq_zero (plain : '|' ∉ text) : bars before text = 0 := by
  induction text generalizing before with
  | nil => rfl
  | cons c text ih =>
    rw [List.mem_cons, not_or] at plain
    obtain ⟨other, later⟩ := plain
    have open' : isBar before c = false := by
      rw [isBar, beq_false_of_ne (Ne.symm other)]
      rfl
    rw [bars, open', ih later]
    rfl

/-- Between its bars a cell has the bars that it has by itself. -/
theorem bars_padded (before : Option Char) (text : String) :
    bars before (padded text) = bars none text.toList := by
  have blank (before : Option Char) : bars before [' '] = 0 := bars_eq_zero (by decide)
  rw [padded, ← List.singleton_append, bars_append, blank, bars_append, blank, Nat.zero_add,
    Nat.add_zero]
  cases text.toList <;> rfl

/-- A bar that nothing escapes cuts a text in two. -/
theorem cut_append_bar (free : front.getLast?.or before ≠ some '\\') :
    cut before (front ++ '|' :: back) = cut before front ++ cut (some '|') back := by
  induction front generalizing before with
  | nil =>
    have bar : isBar before '|' = true := by
      rw [isBar, BEq.rfl, Bool.true_and]
      exact bne_iff_ne.mpr free
    exact cut_of_isBar bar back
  | cons c front ih =>
    have later : front.getLast?.or (some c) ≠ some '\\' := by
      rw [List.getLast?_cons] at free
      cases last : front.getLast? <;> simpa [last] using free
    obtain ⟨piece, rest, first⟩ := List.exists_cons_of_ne_nil (cut_ne_nil (some c) front)
    rw [List.cons_append, cut, cut, ih later, first]
    split <;> rfl

theorem cut_padded_bar (before : Option Char) (text : String) (back : List Char) :
    cut before (padded text ++ '|' :: back) = cut before (padded text) ++ cut (some '|') back := by
  refine cut_append_bar ?_
  rw [padded, ← List.cons_append, List.getLast?_concat, Option.some_or]
  decide

theorem toList_row (filled : cells ≠ []) :
    (row cells).toList = '|' :: cells.flatMap fun cell => padded cell ++ ['|'] := by
  have joined : ∀ later first, ' ' :: (" | ".toList.intercalate ((first :: later).map String.toList) ++
      [' ', '|']) = (first :: later).flatMap fun cell => padded cell ++ ['|'] := by
    intro later
    induction later with
    | nil =>
      intro first
      simp [padded]
    | cons second later ih =>
      intro first
      rw [List.flatMap_cons, ← ih second, List.map_cons, List.map_cons,
        List.intercalate_cons_cons]
      simp [padded]
  obtain ⟨first, later, rfl⟩ := List.exists_cons_of_ne_nil filled
  rw [row, String.toList_append, String.toList_append, String.toList_intercalate, ← joined]
  rfl

/-- A row is cut into its cells, each of them cut at the bars that it has itself. -/
theorem cut_row (filled : cells ≠ []) :
    cut none (row cells).toList =
      [] :: (cells.flatMap fun cell => cut (some '|') (padded cell)) ++ [[]] := by
  have inside (cells : List String) :
      cut (some '|') (cells.flatMap fun cell => padded cell ++ ['|']) =
        (cells.flatMap fun cell => cut (some '|') (padded cell)) ++ [[]] := by
    induction cells with
    | nil => rfl
    | cons cell cells ih =>
      rw [List.flatMap_cons, List.flatMap_cons, List.append_assoc, List.singleton_append,
        cut_padded_bar, ih, List.append_assoc]
  rw [toList_row filled, cut_of_isBar rfl, inside, List.cons_append]

/-- No bar of an escaped text ends a cell. -/
theorem bars_cell (before : Option Char) (text : String) : bars before (cell text).toList = 0 := by
  rw [cell, String.toList_ofList]
  generalize text.toList = given
  induction given generalizing before with
  | nil => rfl
  | cons c given ih =>
    rw [List.flatMap_cons, bars_append, ih, Nat.add_zero]
    split
    · rfl
    · rename_i other
      exact bars_eq_zero (by simpa using Ne.symm other)

/-- What is said of a file behind its path: its score, its status and the number of its issues, or
only that it was rejected and why. -/
def verdictCells (entry : BatchEntry) : List String :=
  match entry.outcome with
  | .analyzed report =>
    [toString report.score, report.status.name, toString report.issues.length]
  | .rejected reason => ["-", "rejected: " ++ cell (reason.getD unknownReason), "-"]

theorem batchRow_eq (entry : BatchEntry) :
    batchRow entry = row (entry.path.text :: verdictCells entry) := by
  rw [batchRow, verdictCells]
  cases entry.outcome <;> rfl

theorem not_mem_name (status : Status) : '|' ∉ status.name.toList ∧ '\n' ∉ status.name.toList := by
  cases status <;> decide

/-- A cell behind the path is a number, a name or a dash, or it tells why the file was rejected. -/
theorem plain_or_reason {entry : BatchEntry} {shown : String} (listed : shown ∈ verdictCells entry) :
    ('|' ∉ shown.toList ∧ '\n' ∉ shown.toList) ∨
      ∃ reason, entry.outcome = .rejected reason ∧
        shown = "rejected: " ++ cell (reason.getD unknownReason) := by
  have number (n : Nat) : '|' ∉ (toString n).toList ∧ '\n' ∉ (toString n).toList :=
    ⟨not_mem_toString (by decide) n, not_mem_toString (by decide) n⟩
  have dash : '|' ∉ "-".toList ∧ '\n' ∉ "-".toList := by decide
  rw [verdictCells] at listed
  split at listed
  · rename_i report
    simp only [List.mem_cons, List.not_mem_nil, or_false] at listed
    rcases listed with rfl | rfl | rfl
    · exact Or.inl (number _)
    · exact Or.inl (not_mem_name _)
    · exact Or.inl (number _)
  · rename_i reason rejected
    simp only [List.mem_cons, List.not_mem_nil, or_false] at listed
    rcases listed with rfl | rfl | rfl
    · exact Or.inl dash
    · exact Or.inr ⟨reason, rejected, rfl⟩
    · exact Or.inl dash

/-- Whatever became of a file, no bar ends a cell before its time. -/
theorem bars_verdictCells {entry : BatchEntry} {shown : String}
    (listed : shown ∈ verdictCells entry) : bars none shown.toList = 0 := by
  rcases plain_or_reason listed with ⟨noBar, -⟩ | ⟨reason, -, rfl⟩
  · exact bars_eq_zero noBar
  · have word : bars none "rejected: ".toList = 0 := bars_eq_zero (by decide)
    rw [String.toList_append, bars_append, bars_cell, word]

theorem cut_batchRow (entry : BatchEntry) :
    cut none (batchRow entry).toList =
      [] :: cut (some '|') (padded entry.path.text) ++ (verdictCells entry).map padded ++ [[]] := by
  have behind : (verdictCells entry).flatMap (fun cell => cut (some '|') (padded cell)) =
      (verdictCells entry).map padded := by
    rw [List.map_eq_flatMap]
    refine List.flatMap_congr fun cell listed => ?_
    exact cut_of_bars_eq_zero ((bars_padded _ cell).trans (bars_verdictCells listed))
  rw [batchRow_eq, cut_row (List.cons_ne_nil _ _), List.flatMap_cons, behind, List.cons_append,
    List.cons_append, List.cons_append]

theorem length_verdictCells (entry : BatchEntry) : (verdictCells entry).length = 3 := by
  rw [verdictCells]
  split <;> rfl

/-- Besides the five bars of its row a file has those of its path. -/
theorem bars_batchRow (entry : BatchEntry) :
    bars none (batchRow entry).toList = 5 + bars none entry.path.text.toList := by
  have pieces := congrArg List.length (cut_batchRow entry)
  simp only [length_cut, List.length_append, List.length_cons, List.length_map, List.length_nil,
    length_verdictCells, bars_padded] at pieces
  omega

theorem newline_not_mem_cell {text : String} (plain : '\n' ∉ text.toList) :
    '\n' ∉ (cell text).toList := by
  rw [cell, String.toList_ofList]
  intro member
  obtain ⟨c, inside, shown⟩ := List.mem_flatMap.mp member
  split at shown
  · exact absurd shown (by decide)
  · exact plain (List.mem_singleton.mp shown ▸ inside)

theorem newline_not_mem_verdictCells {entry : BatchEntry}
    (given : ∀ reason, entry.outcome = .rejected (some reason) → '\n' ∉ reason.toList)
    {shown : String} (listed : shown ∈ verdictCells entry) : '\n' ∉ shown.toList := by
  rcases plain_or_reason listed with ⟨-, oneLine⟩ | ⟨reason, rejected, rfl⟩
  · exact oneLine
  · have word : '\n' ∉ "rejected: ".toList := by decide
    have plain : '\n' ∉ (reason.getD unknownReason).toList := by
      cases reason with
      | none => decide
      | some text => exact given text rejected
    rw [String.toList_append, List.mem_append, not_or]
    exact ⟨word, newline_not_mem_cell plain⟩

/-- A row takes up one line, given that the path and the reason it shows do. -/
theorem newline_not_mem_batchRow {entry : BatchEntry} (path : '\n' ∉ entry.path.text.toList)
    (given : ∀ reason, entry.outcome = .rejected (some reason) → '\n' ∉ reason.toList) :
    '\n' ∉ (batchRow entry).toList := by
  have cells : ∀ cell ∈ entry.path.text :: verdictCells entry, '\n' ∉ cell.toList :=
    List.forall_mem_cons.mpr ⟨path, fun _ => newline_not_mem_verdictCells given⟩
  rw [batchRow_eq, toList_row (List.cons_ne_nil _ _), List.mem_cons, not_or]
  refine ⟨by decide, fun member => ?_⟩
  obtain ⟨cell, listed, inside⟩ := List.mem_flatMap.mp member
  simp only [padded, List.cons_append, List.mem_cons, List.mem_append, List.not_mem_nil, or_false,
    Char.reduceEq, false_or] at inside
  exact cells cell listed inside

/-- The lines above the rows of a batch. -/
def batchHeading : List String :=
  ["# Batch Analysis", "", "| File | Score | Status | Issues |",
    "|------|-------|--------|--------|"]

/-- A batch is shown in four lines of heading and one line for each file, in order. Besides the five
bars of its row the line of a file has those bars of its path that no backslash stands right before. It
is cut into four cells, the path and what is said of the file, if and only if the path has no such
bar; a reason may have any. -/
theorem batch_table {entries : List BatchEntry} (colors : Bool)
    (paths : ∀ entry ∈ entries, '\n' ∉ entry.path.text.toList)
    (reasons : ∀ entry ∈ entries, ∀ reason, entry.outcome = .rejected (some reason) →
      '\n' ∉ reason.toList) :
    Text.lines ((Exhibit.batch entries).render .markdown colors).toList =
      (batchHeading ++ entries.map batchRow).map String.toList ++ [[]] ∧
    ∀ entry ∈ entries,
      bars none (batchRow entry).toList = 5 + bars none entry.path.text.toList ∧
      (cut none (batchRow entry).toList =
          [] :: (entry.path.text :: verdictCells entry).map padded ++ [[]] ↔
        bars none entry.path.text.toList = 0) := by
  constructor
  · refine lines_ended fun line listed => ?_
    rcases List.mem_append.mp listed with heading | row
    · have plain : ∀ line ∈ batchHeading, '\n' ∉ line.toList := by decide
      exact plain line heading
    · obtain ⟨entry, member, rfl⟩ := List.mem_map.mp row
      exact newline_not_mem_batchRow (paths entry member) (reasons entry member)
  · refine fun entry _ => ⟨bars_batchRow entry, ?_⟩
    constructor
    · intro fourCells
      have pieces := congrArg List.length fourCells
      rw [length_cut, bars_batchRow] at pieces
      simp only [List.length_append, List.length_cons, List.length_map, List.length_nil,
        length_verdictCells] at pieces
      omega
    · intro noBar
      have whole := cut_of_bars_eq_zero ((bars_padded (some '|') entry.path.text).trans noBar)
      rw [cut_batchRow, whole]
      rfl

/-- A file whose path has a bar, rejected for a reason that has one too. -/
def barredEntry : BatchEntry :=
  ⟨⟨"a|b.py"⟩, .rejected (some "x|y")⟩

/-- Its row has six bars that end cells, and so it is not cut into four cells. -/
theorem batch_table_barredEntry :
    bars none (batchRow barredEntry).toList = 6 ∧
      cut none (batchRow barredEntry).toList ≠
        [] :: (barredEntry.path.text :: verdictCells barredEntry).map padded ++ [[]] := by
  have path : ∀ entry ∈ [barredEntry], '\n' ∉ entry.path.text.toList := by decide
  have reason : ∀ entry ∈ [barredEntry], ∀ reason, entry.outcome = .rejected (some reason) →
      '\n' ∉ reason.toList := by
    intro entry member reason rejected
    rw [List.mem_singleton.mp member] at rejected
    cases rejected
    decide
  have one : bars none barredEntry.path.text.toList = 1 := by decide
  obtain ⟨-, rows⟩ := batch_table false path reason
  obtain ⟨count, fourCells⟩ := rows barredEntry List.mem_cons_self
  rw [one] at count fourCells
  exact ⟨count, fun cells => Nat.one_ne_zero (fourCells.mp cells)⟩

end Markdown

end SnippetAudit
