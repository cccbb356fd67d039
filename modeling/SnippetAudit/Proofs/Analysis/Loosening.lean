import SnippetAudit.Proofs.Analysis.Aloud
import SnippetAudit.Proofs.Issue.Milder
import SnippetAudit.Proofs.Issue.Rules
import SnippetAudit.Proofs.Settings.Sound

/-!
Looser thresholds. A rule that does not fire under some thresholds does not fire under looser ones,
and one that still fires may only become milder; so no verdict gets worse.
-/

namespace SnippetAudit

/-- Thresholds under which no rule fires sooner. The share of comments that is asked for is the
same. -/
structure Thresholds.Looser (strict loose : Thresholds) : Prop where
  lineLength : strict.maxLineLength ≤ loose.maxLineLength
  high : strict.complexityHigh ≤ loose.complexityHigh
  medium : strict.complexityMedium ≤ loose.complexityMedium
  codeLines : strict.documentationMinCodeLines ≤ loose.documentationMinCodeLines
  share : loose.documentationMinShare = strict.documentationMinShare
  printing : strict.debugOutputMin ≤ loose.debugOutputMin
  nesting : strict.maxNestingDepth ≤ loose.maxNestingDepth

namespace Issue

variable {text : List Char} {metrics : LineMetrics} {decisions : Nat} {strict loose : Thresholds}
  {weights : Weights}

theorem longLines_eased {short long : Nat} (limits : short ≤ long) :
    Eased weights (longLines text long) (longLines text short) := by
  rw [longLines, longLines]
  refine Eased.filterMap fun (line, index) issue found => ?_
  obtain ⟨tooLong, same⟩ := Option.ite_none_right_eq_some.mp found
  cases same
  exact ⟨_, if_pos (Nat.lt_of_le_of_lt limits tooLong), .make _ _ _ _ _ _⟩

/-- The rule for decisions may change from high to medium, which costs no more; it does not change
from medium to high. -/
theorem complexity_eased (valid : Settings.problemOfWeights? weights = none)
    (looser : strict.Looser loose) :
    Eased weights (complexity decisions loose).toList (complexity decisions strict).toList := by
  refine Eased.toList fun issue found => ?_
  rw [complexity, Option.mem_def] at found
  split at found
  · rename_i high
    cases found
    exact ⟨_, if_pos (Nat.lt_of_le_of_lt looser.high high), rfl, Nat.le_refl _⟩
  · obtain ⟨medium, same⟩ := Option.ite_none_right_eq_some.mp found
    cases same
    have still := Nat.lt_of_le_of_lt looser.medium medium
    by_cases high : strict.complexityHigh < decisions
    · exact ⟨_, if_pos high, rfl, (Settings.problemOfWeights?_eq_none_iff.mp valid).medium⟩
    · exact ⟨_, (if_neg high).trans (if_pos still), rfl, Nat.le_refl _⟩

theorem foundBy_eased (valid : Settings.problemOfWeights? weights = none)
    (looser : strict.Looser loose) (rule : Rule) :
    Eased weights (foundBy text metrics decisions loose rule)
      (foundBy text metrics decisions strict rule) := by
  cases rule with
  | longLine => exact longLines_eased looser.lineLength
  | unsafeEval | logicalForElse => exact Eased.refl _
  | complexity => exact complexity_eased valid looser
  | lowDocumentation =>
    refine Eased.toList fun issue found => ⟨issue, ?_, .refl issue⟩
    obtain ⟨⟨code, share⟩, same⟩ := Option.ite_none_right_eq_some.mp found
    rw [looser.share] at share
    exact (if_pos ⟨Nat.lt_of_le_of_lt looser.codeLines code, share⟩).trans same
  | debugOutput =>
    refine Eased.toList fun issue found => ⟨issue, ?_, .refl issue⟩
    obtain ⟨calls, same⟩ := Option.ite_none_right_eq_some.mp found
    exact (if_pos (Nat.le_trans looser.printing calls)).trans same
  | deepNesting =>
    refine Eased.toList fun issue found => ⟨issue, ?_, .refl issue⟩
    obtain ⟨deep, same⟩ := Option.ite_none_right_eq_some.mp found
    exact (if_pos (Nat.lt_of_le_of_lt looser.nesting deep)).trans same

theorem detect_eased (text : List Char) (metrics : LineMetrics) (decisions : Nat)
    (valid : Settings.problemOfWeights? weights = none) (looser : strict.Looser loose) :
    Eased weights (detect text metrics decisions loose) (detect text metrics decisions strict) := by
  rw [detect_eq_flatMap, detect_eq_flatMap]
  exact Eased.flatMap fun rule _ => foundBy_eased valid looser rule

end Issue

/-- Under looser thresholds a text scores no less, is no less maintainable and has no more issues,
neither all together nor of any rule. -/
theorem Report.silent_loosened (settings : Settings) (text : List Char) {loose : Thresholds}
    (valid : Settings.problemOfWeights? settings.weights = none)
    (looser : settings.thresholds.Looser loose) :
    let before := silent settings text
    let after := silent { settings with thresholds := loose } text
    before.score ≤ after.score ∧ before.metrics.maintainability ≤ after.metrics.maintainability ∧
      after.issues.length ≤ before.issues.length ∧
      ∀ rule, Issue.countOf rule after.issues ≤ Issue.countOf rule before.issues := by
  have eased := Issue.detect_eased text (LineMetrics.ofText text) (decisionCount text) valid looser
  simp only [silent_eq, Analysis.of_eq_direct]
  exact ⟨eased.points_le, eased.maintainabilityOf_le _, eased.length_le, eased.countOf_le⟩

/-- Thresholds looser than those that are set without being asked for; the two for decisions are the
same, which valid settings do not allow. -/
def Thresholds.roomy : Thresholds :=
  { maxLineLength := 120, complexityHigh := 25, complexityMedium := 25,
    documentationMinCodeLines := 60, debugOutputMin := 5, maxNestingDepth := 8 }

theorem Report.silent_roomy :
    let before := silent {} "print(x)\nprint(x)\nprint(x)".toList
    let after := silent { thresholds := .roomy } "print(x)\nprint(x)\nprint(x)".toList
    Settings.problemOfWeights? {} = none ∧ Thresholds.Looser {} .roomy ∧
      before.score ≤ after.score ∧ before.metrics.maintainability ≤ after.metrics.maintainability ∧
        after.issues.length ≤ before.issues.length ∧
        ∀ rule, Issue.countOf rule after.issues ≤ Issue.countOf rule before.issues := by
  have looser : Thresholds.Looser {} .roomy :=
    ⟨by decide, by decide, by decide, by decide, rfl, by decide, by decide⟩
  exact ⟨rfl, looser, silent_loosened {} "print(x)\nprint(x)\nprint(x)".toList rfl looser⟩

end SnippetAudit
