import SnippetAudit.Decision
import SnippetAudit.Proofs.Issue.Lines
import SnippetAudit.Proofs.Pattern.LineEnding

/-!
What is found in a text with the other line ending. Counts of lines, decisions and branches, and the
rules for `eval`, nesting and output tell the same of a text whichever way its lines end.
-/

namespace SnippetAudit

open Text

variable (text : List Char)

theorem LineKind.of_append_return (line : List Char) : of (line ++ ['\r']) = of line := by
  rw [of, of, trim_append_return]

theorem LineKind.count_withReturns (kind : LineKind) :
    kind.count (withReturns text) = kind.count text := by
  have kinds := map_lines_withReturns of_append_return text
  have counted (text : List Char) :
      kind.count text = ((lines text).map LineKind.of).countP (· == kind) := by
    rw [List.countP_map]
    rfl
  rw [counted, counted, kinds]

theorem LineMetrics.ofText_withReturns : ofText (withReturns text) = ofText text := by
  have total : (lines (withReturns text)).length = (lines text).length := by
    rw [lines, lines, length_pieces, length_pieces, Text.count_withReturns (by decide)]
  simp only [ofText, total, LineKind.count_withReturns]

namespace Pattern

theorem ignoresReturns_token {names : List String}
    (plain : ∀ name ∈ names, '\n' ∉ name.toList ∧ '\r' ∉ name.toList) :
    (sequence [edge, anyCase names, edge]).IgnoresReturns :=
  ignoresReturns_edge.next ((ignoresReturns_anyCase plain).next ignoresReturns_edge)

theorem ignoresReturns_call {names : List String}
    (plain : ∀ name ∈ names, '\n' ∉ name.toList ∧ '\r' ∉ name.toList) :
    (sequence [exactly names, blanks, char '(']).IgnoresReturns :=
  (ignoresReturns_exactly plain).next (ignoresReturns_blanks_char (by decide))

theorem count_decisionWord_withReturns :
    decisionWord.count (withReturns text) = decisionWord.count text := by
  refine (ignoresReturns_token (by decide)).count_withReturns (fun afterWord rest => ?_) text
  cases afterWord <;> rfl

theorem count_branch_withReturns : branch.count (withReturns text) = branch.count text := by
  refine (ignoresReturns_token (by decide)).count_withReturns (fun afterWord rest => ?_) text
  cases afterWord <;> rfl

theorem starts_evalCall_withReturns :
    evalCall.starts (withReturns text) = (evalCall.starts text).map (shifted text) := by
  refine (ignoresReturns_edge.next (ignoresReturns_call (by decide))).starts_withReturns
    (fun afterWord rest => ?_) text
  cases afterWord <;> rfl

theorem count_printing_withReturns : printing.count (withReturns text) = printing.count text := by
  refine ((ignoresReturns_exactly (by decide)).either ((ignoresReturns_exactly (by decide)).either
    ((ignoresReturns_exactly (by decide)).either
      (ignoresReturns_call (by decide))))).count_withReturns (fun afterWord rest => ?_) text
  rfl

end Pattern

theorem decisionCount_withReturns : decisionCount (withReturns text) = decisionCount text := by
  rw [decisionCount, decisionCount, Pattern.count_decisionWord_withReturns,
    Text.count_withReturns (by decide)]

namespace Issue

theorem evalLines_withReturns : evalLines (withReturns text) = evalLines text := by
  rw [evalLines_eq, evalLines_eq, Pattern.starts_evalCall_withReturns, List.map_map]
  congr 1
  exact List.map_congr_left fun start _ => lineAt_shifted text start

/-- The depth of a line, unless it is blank. -/
def depth? (line : List Char) : Option Nat :=
  if isBlankLine line then none else some (nestingDepth line)

theorem depth?_append_return (line : List Char) : depth? (line ++ ['\r']) = depth? line := by
  rw [depth?, depth?, isBlankLine_append_return]
  cases blank : isBlankLine line with
  | true => rfl
  | false => rw [nestingDepth, nestingDepth, takeWhile_isBlank_append_return blank]

theorem deepestNesting_withReturns : deepestNesting (withReturns text) = deepestNesting text := by
  have depths (found : List (List Char)) :
      (found.filter (!isBlankLine ·)).map nestingDepth = (found.map depth?).filterMap id := by
    induction found with
    | nil => rfl
    | cons line found ih =>
      rw [List.filter_cons, List.map_cons, depth?]
      cases isBlankLine line with
      | true => exact ih
      | false => exact congrArg (nestingDepth line :: ·) ih
  rw [deepestNesting, deepestNesting, depths, depths, map_lines_withReturns depth?_append_return]

end Issue

/-- A text with carriage returns before its newlines has as many lines of each kind, decisions and
branches as the text without them, and the rules for `eval`, nesting and output find the same in
both. The text may have carriage returns already, at the ends of lines or anywhere else. -/
theorem same_with_returns :
    LineMetrics.ofText (withReturns text) = LineMetrics.ofText text ∧
      decisionCount (withReturns text) = decisionCount text ∧
      branchCount (withReturns text) = branchCount text ∧
      Issue.evalCalls (withReturns text) = Issue.evalCalls text ∧
      (∀ limit, Issue.nesting (withReturns text) limit = Issue.nesting text limit) ∧
      ∀ least, Issue.debugOutput (withReturns text) least = Issue.debugOutput text least := by
  refine ⟨LineMetrics.ofText_withReturns text, decisionCount_withReturns text,
    Pattern.count_branch_withReturns text, ?_, fun limit => ?_, fun least => ?_⟩
  · rw [Issue.evalCalls, Issue.evalCalls, Issue.evalLines_withReturns]
  · rw [Issue.nesting, Issue.nesting, Issue.deepestNesting_withReturns]
  · rw [Issue.debugOutput, Issue.debugOutput, Pattern.count_printing_withReturns]

end SnippetAudit
