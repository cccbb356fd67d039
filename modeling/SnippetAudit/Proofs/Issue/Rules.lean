import SnippetAudit.Issue.Rules

/-!
What each rule finds. The issues of a text are those of one rule after the other, and the issues of a
rule are found among them again by the rule they name.
-/

namespace SnippetAudit

/-- The place of a rule in the order in which the rules are applied. -/
def Rule.rank (rule : Rule) : Nat :=
  Rule.all.idxOf rule

namespace Issue

variable {text : List Char} {metrics : LineMetrics} {decisions : Nat} {thresholds : Thresholds}
  {rule : Rule} {issue : Issue}

/-- The issues that one rule finds. -/
def foundBy (text : List Char) (metrics : LineMetrics) (decisions : Nat) (thresholds : Thresholds) :
    Rule → List Issue
  | .longLine => longLines text thresholds.maxLineLength
  | .unsafeEval => (evalCalls text).toList
  | .complexity => (complexity decisions thresholds).toList
  | .lowDocumentation => (documentation metrics thresholds).toList
  | .debugOutput => (debugOutput text thresholds.debugOutputMin).toList
  | .deepNesting => (nesting text thresholds.maxNestingDepth).toList
  | .logicalForElse => (forElse text).toList

theorem detect_eq_flatMap (text : List Char) (metrics : LineMetrics) (decisions : Nat)
    (thresholds : Thresholds) :
    detect text metrics decisions thresholds =
      Rule.all.flatMap (foundBy text metrics decisions thresholds) := by
  simp [detect, Rule.all, foundBy]

theorem rule_of_mem_foundBy (member : issue ∈ foundBy text metrics decisions thresholds rule) :
    issue.rule = rule := by
  cases rule with
  | longLine =>
    obtain ⟨⟨line, index⟩, _, made⟩ := List.mem_filterMap.mp member
    obtain ⟨_, found⟩ := Option.ite_none_right_eq_some.mp made
    cases found
    rfl
  | unsafeEval =>
    obtain ⟨_, _, rfl⟩ := Option.map_eq_some_iff.mp (Option.mem_toList.mp member)
    rfl
  | complexity =>
    rw [foundBy, Option.mem_toList, complexity] at member
    split at member
    · cases member
      rfl
    · obtain ⟨_, found⟩ := Option.ite_none_right_eq_some.mp member
      cases found
      rfl
  | lowDocumentation | debugOutput | deepNesting | logicalForElse =>
    obtain ⟨_, found⟩ := Option.ite_none_right_eq_some.mp (Option.mem_toList.mp member)
    cases found
    rfl

/-- The issues that name a rule are those that the rule finds. -/
theorem filter_detect (rule : Rule) :
    (detect text metrics decisions thresholds).filter (·.rule == rule) =
      foundBy text metrics decisions thresholds rule := by
  have own (other : Rule) :
      (foundBy text metrics decisions thresholds other).filter (·.rule == rule) =
        if other = rule then foundBy text metrics decisions thresholds other else [] := by
    split
    · rename_i same
      refine List.filter_eq_self.mpr fun issue member => ?_
      rw [rule_of_mem_foundBy member, same]
      exact BEq.rfl
    · rename_i different
      refine List.filter_eq_nil_iff.mpr fun issue member => ?_
      rw [rule_of_mem_foundBy member]
      simpa using different
  rw [detect_eq_flatMap, List.filter_flatMap]
  simp only [own, Rule.all, List.flatMap_cons, List.flatMap_nil]
  cases rule <;> simp

theorem countOf_detect (rule : Rule) :
    countOf rule (detect text metrics decisions thresholds) =
      (foundBy text metrics decisions thresholds rule).length := by
  rw [countOf, List.countP_eq_length_filter, filter_detect]

/-- A rule finds one issue at most, but for lines that are too long. -/
theorem length_foundBy_le_one (other : rule ≠ .longLine) :
    (foundBy text metrics decisions thresholds rule).length ≤ 1 := by
  cases rule with
  | longLine => exact absurd rfl other
  | _ => exact Option.length_toList_le

theorem detect_pairwise_rank :
    (detect text metrics decisions thresholds).Pairwise fun first second =>
      first.rule.rank ≤ second.rule.rank := by
  rw [detect_eq_flatMap, List.pairwise_flatMap]
  constructor
  · intro rule _
    refine List.pairwise_iff_forall_sublist.mpr fun {first second} part => ?_
    have one : first.rule = rule := rule_of_mem_foundBy (part.subset (by simp))
    have other : second.rule = rule := rule_of_mem_foundBy (part.subset (by simp))
    exact Nat.le_of_eq (by rw [one, other])
  · have ranked : Rule.all.Pairwise fun first second => first.rank ≤ second.rank := by decide
    refine ranked.imp fun below issue member other listed => ?_
    rwa [rule_of_mem_foundBy member, rule_of_mem_foundBy listed]

end Issue

end SnippetAudit
