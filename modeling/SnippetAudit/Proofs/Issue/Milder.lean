import Mathlib.Data.List.Forall2
import SnippetAudit.Proofs.Score

/-!
Milder lists of issues. Leaving issues out of a list, or putting one of the same rule and of no
greater weight in the place of another, makes a list milder: it has no more issues of any rule, and
nothing that is computed of it comes out worse.
-/

namespace SnippetAudit

namespace Issue

variable {weights : Weights} {mild grave : List Issue}

/-- An issue of the same rule that costs no more. -/
def Milder (weights : Weights) (mild grave : Issue) : Prop :=
  mild.rule = grave.rule ∧ weights.of mild.severity ≤ weights.of grave.severity

theorem Milder.refl (issue : Issue) : issue.Milder weights issue :=
  ⟨rfl, Nat.le_refl _⟩

/-- Where an issue is and what is said of it do not matter. -/
theorem Milder.make (rule : Rule) (severity : Severity) (line line' : Nat)
    (description description' : String) :
    (Issue.make rule severity line description).Milder weights
      (Issue.make rule severity line' description') :=
  ⟨rfl, Nat.le_refl _⟩

/-- Some of the issues of a list, in their order, each as it was or milder. -/
abbrev Eased (weights : Weights) : List Issue → List Issue → Prop :=
  List.SublistForall₂ (Milder weights)

namespace Eased

theorem length_le (eased : Eased weights mild grave) : mild.length ≤ grave.length := by
  induction eased with
  | nil => exact Nat.zero_le _
  | cons _ _ ih => exact Nat.succ_le_succ ih
  | cons_right _ ih => exact Nat.le_succ_of_le ih

theorem countOf_le (eased : Eased weights mild grave) (rule : Rule) :
    countOf rule mild ≤ countOf rule grave := by
  induction eased with
  | nil => exact Nat.zero_le _
  | cons milder _ ih =>
    rw [countOf, countOf, List.countP_cons, List.countP_cons, milder.1]
    exact Nat.add_le_add_right ih _
  | cons_right _ ih =>
    rw [countOf, countOf, List.countP_cons]
    exact Nat.le_add_right_of_le ih

theorem sum_le (eased : Eased weights mild grave) :
    (mild.map fun issue => weights.of issue.severity).sum ≤
      (grave.map fun issue => weights.of issue.severity).sum := by
  induction eased with
  | nil => exact Nat.zero_le _
  | cons milder _ ih =>
    rw [List.map_cons, List.map_cons, List.sum_cons, List.sum_cons]
    exact Nat.add_le_add milder.2 ih
  | cons_right _ ih =>
    rw [List.map_cons, List.sum_cons]
    exact Nat.le_add_left_of_le ih

theorem points_le (eased : Eased weights mild grave) :
    Score.points grave weights ≤ Score.points mild weights := by
  have sums := eased.sum_le
  rw [Score.points, Score.points, Score.penalty_eq, Score.penalty_eq]
  omega

theorem maintainabilityOf_le (eased : Eased weights mild grave) (decisions : Nat) :
    Score.maintainabilityOf decisions grave ≤ Score.maintainabilityOf decisions mild := by
  have complexity := eased.countOf_le .complexity
  have logical := eased.countOf_le .logicalForElse
  rw [Score.maintainabilityOf, Score.maintainabilityOf]
  omega

theorem refl (issues : List Issue) : Eased weights issues issues := by
  induction issues with
  | nil => exact .nil
  | cons issue issues ih => exact .cons (.refl issue) ih

theorem append {mild' grave' : List Issue} (eased : Eased weights mild grave)
    (later : Eased weights mild' grave') : Eased weights (mild ++ mild') (grave ++ grave') := by
  induction eased with
  | @nil issues =>
    induction issues with
    | nil => exact later
    | cons _ _ ih => exact .cons_right ih
  | cons milder _ ih => exact .cons milder ih
  | cons_right _ ih => exact .cons_right ih

theorem flatMap {α : Type} {found found' : α → List Issue} {elements : List α}
    (eased : ∀ element ∈ elements, Eased weights (found element) (found' element)) :
    Eased weights (elements.flatMap found) (elements.flatMap found') := by
  induction elements with
  | nil => exact .nil
  | cons element elements ih =>
    rw [List.flatMap_cons, List.flatMap_cons]
    exact (eased element List.mem_cons_self).append
      (ih fun other member => eased other (List.mem_cons_of_mem element member))

theorem toList {mild grave : Option Issue}
    (eased : ∀ issue ∈ mild, ∃ other ∈ grave, issue.Milder weights other) :
    Eased weights mild.toList grave.toList := by
  cases mild with
  | none => exact .nil
  | some issue =>
    obtain ⟨other, there, milder⟩ := eased issue rfl
    rw [Option.mem_def] at there
    rw [there]
    exact .cons milder .nil

theorem filterMap {α : Type} {found found' : α → Option Issue} {elements : List α}
    (eased : ∀ element, ∀ issue ∈ found element, ∃ other ∈ found' element,
      issue.Milder weights other) :
    Eased weights (elements.filterMap found) (elements.filterMap found') := by
  rw [List.filterMap_eq_flatMap_toList, List.filterMap_eq_flatMap_toList]
  exact flatMap fun element _ => toList (eased element)

end Eased

end Issue

end SnippetAudit
