import SnippetAudit.Issue.Rules
import SnippetAudit.Proofs.Repetition

/-!
Numbers without the repetitions among neighbours. In a list that does not descend equal numbers are
neighbours, so each of its numbers is left once.
-/

namespace SnippetAudit

namespace Issue

/-- A number is left out behind an equal one. -/
theorem eraseReps_cons_cons (first second : Nat) (later : List Nat) :
    (first :: second :: later).eraseReps =
      if first = second then (first :: later).eraseReps
      else first :: (second :: later).eraseReps := by
  simp only [List.eraseReps, eraseRepsBy_cons_cons, beq_iff_eq]

theorem head?_eraseReps (numbers : List Nat) : numbers.eraseReps.head? = numbers.head? := by
  cases numbers with
  | nil => rfl
  | cons first later =>
    induction later generalizing first with
    | nil => rfl
    | cons second later ih =>
      rw [eraseReps_cons_cons]
      split
      · exact ih first
      · rfl

theorem mem_eraseReps {number : Nat} {numbers : List Nat} :
    number ∈ numbers.eraseReps ↔ number ∈ numbers := by
  refine ⟨fun member => (eraseRepsBy_sublist _ numbers).subset member, fun member => ?_⟩
  obtain ⟨kept, stays, same⟩ := exists_mem_eraseRepsBy (fun number => beq_self_eq_true number)
    (fun a b c first second => by rw [beq_iff_eq.mp first]; exact second) member
  rwa [← beq_iff_eq.mp same]

theorem pairwise_eraseReps {numbers : List Nat} (ordered : numbers.Pairwise (· ≤ ·)) :
    numbers.eraseReps.Pairwise (· < ·) := by
  refine pairwise_eraseRepsBy (fun a b c below next => ?_) (ordered.imp fun {a b} below => ?_)
  · rcases next with further | same
    · exact Nat.lt_trans below further
    · rwa [← beq_iff_eq.mp same]
  · rw [beq_iff_eq]
    exact Nat.lt_or_eq_of_le below

/-- A number that has not been met yet stays at the end. -/
theorem eraseReps_append_singleton {numbers : List Nat} {last : Nat} (fresh : last ∉ numbers) :
    (numbers ++ [last]).eraseReps = numbers.eraseReps ++ [last] := by
  cases numbers with
  | nil => rfl
  | cons first later =>
    induction later generalizing first with
    | nil =>
      have different : first ≠ last := fun same => fresh (same ▸ List.mem_cons_self)
      rw [List.singleton_append, eraseReps_cons_cons, if_neg different]
      rfl
    | cons second later ih =>
      rw [List.cons_append, List.cons_append, eraseReps_cons_cons, eraseReps_cons_cons]
      split
      · exact ih first fun member => fresh (by
          rcases List.mem_cons.mp member with here | behind
          · exact here ▸ List.mem_cons_self
          · exact List.mem_cons_of_mem _ (List.mem_cons_of_mem _ behind))
      · rw [← List.cons_append, ih second fun member => fresh (List.mem_cons_of_mem _ member)]
        rfl

end Issue

end SnippetAudit
