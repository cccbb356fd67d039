import SnippetAudit.Classify

/-!
What decides the growth of a text: a fixture for time and space alike, or else the rule that fires
first, which tells what is in the text.
-/

namespace SnippetAudit.Classify

variable {text : List Char} {fixture : Fixture}

/-- A fixture labels time and space, whether or not anything in the text is recursive. -/
theorem of_find? (found : Fixture.find? text = some fixture) (recursive : Bool) :
    time text recursive = (fixture.time, .pinned .time fixture.name fixture.time) ∧
      space text recursive = (fixture.space, .pinned .space fixture.name fixture.space) := by
  constructor
  · rw [time, found]
  · rw [space, found]

/-- What a text has in it that makes the rules for time come to a class of growth. -/
def Warrants (text : List Char) (recursive : Bool) : Growth → Prop
  | .exponentialOrFactorial => recursive = true ∧ branchMin ≤ branchCount text
  | .quadratic => 2 ≤ loopCount text ∨ hasNestedLoop text = true
  | .linearithmic => hasSorting text = true
  | .logarithmic => hasTreeDescent text = true ∨ hasHalvingLoop text = true
  | .linear => hasIteration text = true
  | .constant => hasIteration text = false
  | .cubic | .exponential => False

theorem warrants_timeVerdict (text : List Char) (recursive : Bool) :
    Warrants text recursive (timeVerdict text recursive).growth := by
  rw [timeVerdict]
  split
  · rename_i branches
    rwa [Bool.and_eq_true, decide_eq_true_eq] at branches
  · split
    · rename_i loops
      rwa [Bool.or_eq_true, decide_eq_true_eq] at loops
    · split
      · rename_i sorts
        exact sorts
      · split
        · rename_i descends
          exact (Bool.or_eq_true _ _).mp descends
        · split
          · rename_i iterates
            exact iterates
          · rename_i still
            exact Bool.eq_false_iff.mpr still

/-- The rule for branching recursion comes first of the rules for time, so it fires whenever what it
asks for is there. -/
theorem timeVerdict_eq_branching_iff {text : List Char} {recursive : Bool} :
    timeVerdict text recursive = ⟨"branching-recursion", .exponentialOrFactorial⟩ ↔
      recursive = true ∧ branchMin ≤ branchCount text := by
  constructor
  · intro fires
    have warrants := warrants_timeVerdict text recursive
    rwa [fires] at warrants
  · rintro ⟨rfl, branches⟩
    rw [timeVerdict, Bool.true_and, if_pos (decide_eq_true branches)]

end SnippetAudit.Classify
