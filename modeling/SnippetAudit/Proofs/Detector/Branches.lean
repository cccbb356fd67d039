import Mathlib.Data.List.Flatten
import SnippetAudit.Proofs.Classify
import SnippetAudit.Proofs.Pattern.Token

/-!
Branches counted. A branching word is met exactly where it is a word of its own, so the count is that
of the words of the text which are branching words, and each line adds its own. A text with more lines
in it never has fewer branches, and recursion that branches much goes on doing so.
-/

namespace SnippetAudit

open Text

/-- The words that a program branches with. -/
def branchWords : List String :=
  ["if", "else", "switch", "try", "except", "elif"]

variable {text longer : List Char}

theorem branchCount_eq (text : List Char) :
    branchCount text = (words text).countP (isAmong branchWords) :=
  Pattern.count_token (by decide) (by decide) text

/-- Lines that are left out take their branches with them. -/
theorem branchCount_le (fewer : (lines text).Sublist (lines longer)) :
    branchCount text ≤ branchCount longer := by
  rw [branchCount_eq, branchCount_eq, words_eq_flatMap_lines text, words_eq_flatMap_lines longer]
  exact (fewer.flatMap words).countP_le

/-- The branches of a text are its words that are spelt like a branching word, in upper or lower case.
So two texts with a line break between them have the branches of both; and with more lines anywhere a
text has at least as many, so that the rule for branching recursion fires if it did before. -/
theorem branchCount_tokens :
    (∀ text, branchCount text = (words text).countP (isAmong branchWords)) ∧
    (∀ front back, branchCount (front ++ '\n' :: back) = branchCount front + branchCount back) ∧
    ∀ text longer, (lines text).Sublist (lines longer) →
      branchCount text ≤ branchCount longer ∧
        ∀ recursive, Classify.timeVerdict text recursive =
            ⟨"branching-recursion", .exponentialOrFactorial⟩ →
          Classify.timeVerdict longer recursive =
            ⟨"branching-recursion", .exponentialOrFactorial⟩ := by
  refine ⟨branchCount_eq, fun front back => ?_, fun text longer fewer => ?_⟩
  · rw [branchCount_eq, branchCount_eq, branchCount_eq, words_append_cons (by decide),
      List.countP_append]
  · have count := branchCount_le fewer
    refine ⟨count, fun recursive fires => ?_⟩
    obtain ⟨recurs, branches⟩ := Classify.timeVerdict_eq_branching_iff.mp fires
    exact Classify.timeVerdict_eq_branching_iff.mpr ⟨recurs, Nat.le_trans branches count⟩

/-- Five branching words, some of them next to what belongs to no word. -/
def branchingText : List Char :=
  "If(a)\nELſE-if b\ntry:\nelif é".toList

/-- One line more, in which branching words are parts of longer ones. -/
def wordyText : List Char :=
  "If(a)\nif_ else2 éif\nELſE-if b\ntry:\nelif é".toList

theorem branchCount_wordyText :
    (lines branchingText).Sublist (lines wordyText) ∧ branchCount branchingText = 5 ∧
      branchCount wordyText = 5 ∧ Classify.timeVerdict wordyText true =
        ⟨"branching-recursion", .exponentialOrFactorial⟩ := by
  obtain ⟨counted, -, grows⟩ := branchCount_tokens
  have fewer : (lines branchingText).Sublist (lines wordyText) := by decide
  have five : branchCount branchingText = 5 := by
    rw [counted]
    decide
  have still : branchCount wordyText = 5 := by
    rw [counted]
    decide
  have fires : Classify.timeVerdict branchingText true =
      ⟨"branching-recursion", .exponentialOrFactorial⟩ :=
    Classify.timeVerdict_eq_branching_iff.mpr ⟨rfl, Nat.le_of_eq five.symm⟩
  exact ⟨fewer, five, still, (grows branchingText wordyText fewer).2 true fires⟩

end SnippetAudit
