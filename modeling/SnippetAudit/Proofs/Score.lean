import Mathlib.Algebra.Ring.Int.Defs
import Mathlib.Algebra.Ring.Nat
import SnippetAudit.Score

/-!
Scores as exact arithmetic. The sum of the weights stops at the greatest count and what is taken for
decisions and issues is computed in a limited number of bits, but neither shows in a score: it is
what numbers without bounds give, and it depends only on how many issues of each rule and severity
there are.
-/

namespace SnippetAudit

/-- What counts of an issue when a text is scored. -/
def Issue.charge (issue : Issue) : Rule × Severity :=
  (issue.rule, issue.severity)

theorem Issue.countOf_eq_charges (rule : Rule) (issues : List Issue) :
    countOf rule issues = (issues.map charge).countP (·.1 == rule) := by
  rw [List.countP_map]
  rfl

namespace Score

variable {weights : Weights} {issues others : List Issue} {decisions : Nat}

/-- What issues cost is their weights added up, as far as a count can tell. -/
theorem penalty_eq (issues : List Issue) (weights : Weights) :
    penalty issues weights =
      min maxCount (issues.map fun issue => weights.of issue.severity).sum := by
  have from_sum (sum : Nat) :
      issues.foldl (fun sum issue => min maxCount (sum + weights.of issue.severity))
          (min maxCount sum) =
        min maxCount (sum + (issues.map fun issue => weights.of issue.severity).sum) := by
    induction issues generalizing sum with
    | nil => rfl
    | cons issue issues ih =>
      have step : min maxCount (min maxCount sum + weights.of issue.severity) =
          min maxCount (sum + weights.of issue.severity) := by omega
      rw [List.foldl_cons, step, ih, List.map_cons, List.sum_cons, Nat.add_assoc]
  have whole := from_sum 0
  rwa [Nat.zero_add, Nat.min_zero] at whole

/-- A sum that stops at the greatest count has passed a hundred before. -/
theorem points_eq (issues : List Issue) (weights : Weights) :
    points issues weights = 100 - (issues.map fun issue => weights.of issue.severity).sum := by
  have room : 100 ≤ maxCount := by decide
  rw [points, penalty_eq]
  omega

/-- A number, if it can be held in 64 bits of which one is for the sign. -/
def signed64? (number : Int) : Option Int :=
  if -2 ^ 63 ≤ number ∧ number < 2 ^ 63 then some number else none

theorem signed64?_bind {β : Type} {number : Int} (low : -2 ^ 63 ≤ number) (high : number < 2 ^ 63)
    (next : Int → Option β) : (signed64? number >>= next) = next number := by
  rw [signed64?, if_pos ⟨low, high⟩]
  rfl

/-- Maintainability computed step by step in 64 bits with a sign: nothing if a count, a product or a
difference on the way cannot be held. -/
def maintainability64? (decisions : Nat) (issues : List Issue) : Option Nat := do
  let complexity ← signed64? (Issue.countOf .complexity issues)
  let logical ← signed64? (Issue.countOf .logicalForElse issues)
  let forDecisions ← signed64? (3 * decisions)
  let forComplexity ← signed64? (10 * complexity)
  let forLogical ← signed64? (20 * logical)
  let lessDecisions ← signed64? (100 - forDecisions)
  let lessComplexity ← signed64? (lessDecisions - forComplexity)
  let raw ← signed64? (lessComplexity - forLogical)
  return (max 0 (min raw 100)).toNat

theorem maintainability64?_eq (counted : decisions ≤ maxCount) (listed : issues.length < 2 ^ 57) :
    maintainability64? decisions issues = some (maintainabilityOf decisions issues) := by
  have small : decisions < 2 ^ 32 := Nat.lt_of_le_of_lt counted (by decide)
  have few (rule : Rule) : Issue.countOf rule issues < 2 ^ 57 :=
    Nat.lt_of_le_of_lt List.countP_le_length listed
  rw [maintainability64?, maintainabilityOf]
  have fewComplex := few .complexity
  have fewLogical := few .logicalForElse
  generalize Issue.countOf .complexity issues = complexity at fewComplex ⊢
  generalize Issue.countOf .logicalForElse issues = logical at fewLogical ⊢
  have kept : (max 0 (min (100 - 3 * (decisions : Int) - 10 * complexity - 20 * logical) 100)).toNat =
      100 - (3 * decisions + 10 * complexity + 20 * logical) := by omega
  -- No number on the way reaches `2 ^ 62` in size.
  rw [signed64?_bind (by omega) (by omega), signed64?_bind (by omega) (by omega),
    signed64?_bind (by omega) (by omega), signed64?_bind (by omega) (by omega),
    signed64?_bind (by omega) (by omega), signed64?_bind (by omega) (by omega),
    signed64?_bind (by omega) (by omega), signed64?_bind (by omega) (by omega), kept, Option.pure_def]

/-- Lists with the same rules and severities, each as often, are scored alike. -/
theorem aggregate_congr (metrics : LineMetrics) (decisions : Nat) (weights : Weights)
    (charged : (others.map Issue.charge).Perm (issues.map Issue.charge)) :
    aggregate metrics decisions others weights = aggregate metrics decisions issues weights := by
  have counts (rule : Rule) : Issue.countOf rule others = Issue.countOf rule issues := by
    rw [Issue.countOf_eq_charges, Issue.countOf_eq_charges, charged.countP_eq]
  have costs : (others.map fun issue => weights.of issue.severity).sum =
      (issues.map fun issue => weights.of issue.severity).sum := by
    have weighed := (charged.map fun charge => weights.of charge.2).sum_nat
    rwa [List.map_map, List.map_map] at weighed
  simp only [aggregate, points_eq, readabilityOf, maintainabilityOf, counts, costs]

/-- A score is a hundred less the weights of the issues, and maintainability a hundred less what is
taken for decisions and for issues of two rules, both exactly and at least zero; on the way nothing
passes 64 bits. The order of the issues, their lines and their descriptions do not matter. -/
theorem aggregate_exact (metrics : LineMetrics) (weights : Weights) (counted : decisions ≤ maxCount)
    (listed : issues.length < 2 ^ 57) :
    let result := aggregate metrics decisions issues weights
    (result.score : Int) =
        max 0 (100 - ((issues.map fun issue => weights.of issue.severity).sum : Nat)) ∧
      (result.maintainability : Int) = max 0 (100 - 3 * decisions -
        10 * Issue.countOf .complexity issues - 20 * Issue.countOf .logicalForElse issues) ∧
      maintainability64? decisions issues = some result.maintainability ∧
      ∀ others : List Issue, (others.map Issue.charge).Perm (issues.map Issue.charge) →
        aggregate metrics decisions others weights = result := by
  have score : (aggregate metrics decisions issues weights).score = points issues weights := rfl
  have maintainability : (aggregate metrics decisions issues weights).maintainability =
      maintainabilityOf decisions issues := rfl
  dsimp only
  refine ⟨?_, ?_, ?_, fun others charged => aggregate_congr metrics decisions weights charged⟩
  · rw [score, points_eq]
    omega
  · rw [maintainability, maintainabilityOf]
    omega
  · rw [maintainability, maintainability64?_eq counted listed]

/-- Two issues that cost more than there is, with weights that pass a count together. -/
def dearIssues : List Issue :=
  [⟨.high, "deep", 7, .logicalForElse⟩, ⟨.critical, "", 2, .complexity⟩]

theorem aggregate_dearIssues :
    let weights : Weights := { critical := maxCount, high := maxCount }
    let reordered : List Issue := [⟨.critical, "wide", 9, .complexity⟩, ⟨.high, "", 1, .logicalForElse⟩]
    3 ≤ maxCount ∧ dearIssues.length < 2 ^ 57 ∧
      (aggregate .zero 3 dearIssues weights).score = 0 ∧
      maintainability64? 3 dearIssues = some 61 ∧
      aggregate .zero 3 reordered weights = aggregate .zero 3 dearIssues weights := by
  have counted : 3 ≤ maxCount := by decide
  have listed : dearIssues.length < 2 ^ 57 := by decide
  obtain ⟨score, maintainability, held, alike⟩ := aggregate_exact .zero
    { critical := maxCount, high := maxCount } counted listed
  refine ⟨counted, listed, ?_, held, alike _ (List.Perm.swap _ _ _)⟩
  rw [← Int.natCast_inj, score]
  decide

end Score

end SnippetAudit
