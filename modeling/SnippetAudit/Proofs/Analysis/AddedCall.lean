import SnippetAudit.Proofs.Analysis.Aloud
import SnippetAudit.Proofs.Issue.AddedCall
import SnippetAudit.Proofs.Issue.Milder

/-!
What one more line that calls `eval` costs a text without issues. It costs forty points, unless the
line is one line of code too many for the comments that the text has.
-/

namespace SnippetAudit

open Text

/-- With one more line of code there are too many of them for so few comments, by the thresholds
that are set without being asked for. -/
def LineMetrics.Scant (metrics : LineMetrics) : Prop :=
  30 < metrics.code + 1 ∧ commentShare metrics.comment (metrics.total + 1) < 15.0

theorem LineMetrics.ofText_append_evalLine (text : List Char) :
    let after := ofText (text ++ '\n' :: evalLine)
    after.code = (ofText text).code + 1 ∧
      after.share = commentShare (ofText text).comment ((ofText text).total + 1) := by
  have code : (ofText evalLine).code = 1 := by decide +kernel
  have comment : (ofText evalLine).comment = 0 := by decide +kernel
  have total : (ofText evalLine).total = 1 := by decide +kernel
  dsimp only
  refine ⟨by rw [code_append, code], ?_⟩
  change commentShare (ofText (text ++ '\n' :: evalLine)).comment
    (ofText (text ++ '\n' :: evalLine)).total = _
  rw [comment_append, total_append, comment, total, Nat.add_zero]

/-- The rule for comments finds something in the longer text if and only if it has become scant of
them. -/
theorem Issue.documentation_append_evalLine (text : List Char) :
    ((LineMetrics.ofText text).Scant → ∃ note : Issue, note.rule = .lowDocumentation ∧
      note.severity = .medium ∧
        documentation (.ofText (text ++ '\n' :: evalLine)) {} = some note) ∧
    (¬(LineMetrics.ofText text).Scant →
      documentation (.ofText (text ++ '\n' :: evalLine)) {} = none) := by
  obtain ⟨code, share⟩ := LineMetrics.ofText_append_evalLine text
  rw [documentation, code, share]
  exact ⟨fun scant => ⟨_, rfl, rfl, if_pos scant⟩, fun enough => if_neg enough⟩

/-- A text without issues that gets a line calling `eval` has one critical issue and forty points
less. If it becomes scant of comments by that line it has a medium issue as well, and fifty-five
points less. -/
theorem Report.silent_added_call (text : List Char) (clean : (silent {} text).issues = []) :
    let before := silent {} text
    let after := silent {} (text ++ '\n' :: evalLine)
    ∃ call : Issue, call.rule = .unsafeEval ∧ call.severity = .critical ∧
      (¬(LineMetrics.ofText text).Scant →
        after.issues = [call] ∧ after.score + 40 = before.score) ∧
      ((LineMetrics.ofText text).Scant → ∃ note : Issue, note.rule = .lowDocumentation ∧
        note.severity = .medium ∧ after.issues = [call, note] ∧ after.score + 55 = before.score) := by
  rw [silent_issues] at clean
  obtain ⟨call, isCall, critical, found⟩ := Issue.detect_append_evalLine text (by decide) clean
  obtain ⟨noted, quiet⟩ := Issue.documentation_append_evalLine text
  simp only [silent_issues, silent_score, clean, found]
  refine ⟨call, isCall, critical, fun enough => ?_, fun scant => ?_⟩
  · have cost : Score.penalty [call] {} = 40 := by
      rw [Score.penalty_eq, List.map_singleton, critical]
      decide
    rw [quiet enough, Option.toList_none, Score.points, cost]
    exact ⟨rfl, rfl⟩
  · obtain ⟨note, isNote, medium, noted⟩ := noted scant
    have cost : Score.penalty [call, note] {} = 55 := by
      rw [Score.penalty_eq, List.map_cons, List.map_singleton, critical, medium]
      decide
    rw [noted, Option.toList_some, Score.points, cost]
    exact ⟨note, isNote, medium, rfl, rfl⟩

/-- Thirty short lines of code and no comments. -/
def thirtyLines : List Char :=
  join ['\n'] (List.replicate 30 "x = 1".toList)

theorem LineMetrics.scant_thirtyLines : (ofText thirtyLines).Scant := by
  have code : (ofText thirtyLines).code = 30 := by decide +kernel
  have comment : (ofText thirtyLines).comment = 0 := by decide +kernel
  have total : (ofText thirtyLines).total = 30 := by decide +kernel
  rw [Scant, code, comment, total]
  decide +kernel

/-- Thirty lines of code are not too many to go without comments. -/
theorem Issue.detect_thirtyLines :
    detect thirtyLines (.ofText thirtyLines) (decisionCount thirtyLines) {} = [] := by
  have short : longLines thirtyLines 100 = [] := by decide +kernel
  have calls : Pattern.evalCall.starts thirtyLines = [] := by decide +kernel
  have words : Pattern.starts decisionWord thirtyLines = [] := by decide +kernel
  have decisions : decisionCount thirtyLines = 1 := by
    rw [decisionCount, Pattern.count_eq_length_starts, words]
    decide +kernel
  have code : (LineMetrics.ofText thirtyLines).code = 30 := by decide +kernel
  have prints : Pattern.printing.starts thirtyLines = [] := by decide +kernel
  have flat : deepestNesting thirtyLines = 0 := by decide +kernel
  have straight : contains thirtyLines "if ".toList = false := by decide +kernel
  rw [detect, evalCalls_eq, calls, decisions, documentation, code, debugOutput,
    Pattern.count_eq_length_starts, prints, nesting, flat, forElse, straight, short]
  simp [complexity]

theorem Report.silent_thirtyLines :
    let before := silent {} thirtyLines
    let after := silent {} (thirtyLines ++ '\n' :: evalLine)
    before.issues = [] ∧ ∃ call note, after.issues = [call, note] ∧ after.score + 55 = before.score := by
  have clean : (silent {} thirtyLines).issues = [] := by
    rw [silent_issues]
    exact Issue.detect_thirtyLines
  obtain ⟨call, _, _, _, dear⟩ := silent_added_call thirtyLines clean
  obtain ⟨note, _, _, issues, score⟩ := dear LineMetrics.scant_thirtyLines
  exact ⟨clean, call, note, issues, score⟩

/-- A line that calls `eval` does not always cost forty points: it may be the one for which there are
no longer comments enough. -/
theorem Report.not_always_forty_points :
    ¬∀ text, (silent {} text).issues = [] →
      ∃ call : Issue, (silent {} (text ++ '\n' :: evalLine)).issues = [call] ∧
        call.severity = .critical ∧ call.rule = .unsafeEval ∧
        (silent {} (text ++ '\n' :: evalLine)).score + 40 = (silent {} text).score := by
  intro always
  obtain ⟨call, single, -⟩ := always thirtyLines (by
    rw [silent_issues]
    exact Issue.detect_thirtyLines)
  obtain ⟨_, -, -, found⟩ :=
    Issue.detect_append_evalLine thirtyLines (by decide) Issue.detect_thirtyLines
  obtain ⟨note, -, -, noted⟩ :=
    (Issue.documentation_append_evalLine thirtyLines).1 LineMetrics.scant_thirtyLines
  rw [silent_issues, found, noted] at single
  cases single

end SnippetAudit
