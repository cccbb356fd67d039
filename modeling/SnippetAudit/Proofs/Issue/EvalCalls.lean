import SnippetAudit.Proofs.Issue.Lines
import SnippetAudit.Proofs.Pattern.Apart
import SnippetAudit.Proofs.Pattern.Call

/-!
Calls of `eval` and the lines they are reported at. No call begins within another, so the single walk
along a text that numbers the calls gives each line with a call on it, once and in order.
-/

namespace SnippetAudit

open Text

/-- A call of `eval` begins at an index: the name is not the end of a longer word, and blanks at
most, line breaks among them, stand between it and a parenthesis. -/
def EvalAt (text : List Char) (start : Nat) : Prop :=
  ∃ front gap back, text = front ++ "eval".toList ++ gap ++ '(' :: back ∧ front.length = start ∧
    (∀ c ∈ front.getLast?, isWord c = false) ∧ ∀ c ∈ gap, isBlank c = true

theorem EvalAt.le_length {text : List Char} {start : Nat} (call : EvalAt text start) :
    start ≤ text.length := by
  obtain ⟨front, gap, back, rfl, rfl, -, -⟩ := call
  simp

namespace Pattern

variable {place : Place} {used : List Char}

theorem takes_evalCall :
    evalCall.Takes place used ↔ used <+: place.rest ∧ place.before.any isWord = false ∧
      ∃ gap, used = "eval".toList ++ gap ++ ['('] ∧ ∀ c ∈ gap, isBlank c = true := by
  have letters (name : List Char) (isEval : ∃ spelling ∈ ["eval"], name = spelling.toList) :
      name.head?.any isWord = true := by
    obtain ⟨_, listed, rfl⟩ := isEval
    rw [List.mem_singleton.mp listed]
    decide
  rw [evalCall, takes_call (describes_exactly ["eval"]) letters]
  refine and_congr_right fun _ => and_congr_right fun _ => ?_
  constructor
  · rintro ⟨_, gap, rfl, ⟨_, listed, rfl⟩, gapBlank⟩
    exact ⟨gap, by rw [List.mem_singleton.mp listed], gapBlank⟩
  · rintro ⟨gap, rfl, gapBlank⟩
    exact ⟨_, gap, rfl, ⟨"eval", List.mem_singleton_self _, rfl⟩, gapBlank⟩

/-- The `e` that a call begins with is the only one in it. -/
theorem evalCall_apart : evalCall.Apart := by
  refine Apart.of_first (· == 'e') fun place used taken => ?_
  obtain ⟨-, -, gap, rfl, gapBlank⟩ := takes_evalCall.mp taken
  refine ⟨'e', "val".toList ++ gap ++ ['('], rfl, beq_self_eq_true 'e', fun d member => ?_⟩
  rw [beq_eq_false_iff_ne]
  rintro rfl
  simp only [List.mem_append, List.mem_singleton] at member
  rcases member with (inName | inGap) | last
  · exact absurd inName (by decide)
  · exact absurd (gapBlank 'e' inGap) (by decide)
  · exact absurd last (by decide)

theorem mem_starts_evalCall {text : List Char} {start : Nat} :
    start ∈ evalCall.starts text ↔ EvalAt text start := by
  rw [evalCall_apart.mem_starts_iff]
  simp only [takes_evalCall, Place.after_rest, Place.origin_rest]
  constructor
  · rintro ⟨_, ⟨back, rest⟩, apart, gap, rfl, gapBlank⟩
    have within : start ≤ text.length := by
      have some' := congrArg List.length rest
      simp only [List.length_append, List.length_singleton, List.length_drop] at some'
      omega
    refine ⟨text.take start, gap, back, ?_, List.length_take_of_le within, fun c last => ?_,
      gapBlank⟩
    · have whole := List.take_append_drop start text
      rw [← rest] at whole
      simpa using whole.symm
    · rw [Place.after, Place.origin, Option.or_none, Option.any_eq_false] at apart
      simpa using apart c last
  · rintro ⟨front, gap, back, rfl, rfl, apart, gapBlank⟩
    have rest : (front ++ "eval".toList ++ gap ++ '(' :: back).drop front.length =
        "eval".toList ++ gap ++ ['('] ++ back := by
      simp
    have before : (front ++ "eval".toList ++ gap ++ '(' :: back).take front.length = front := by
      simp
    refine ⟨"eval".toList ++ gap ++ ['('], ⟨back, rest.symm⟩, ?_, gap, rfl, gapBlank⟩
    rw [Place.after, Place.origin, before, Option.or_none, Option.any_eq_false]
    exact fun c last => by simpa using apart c last

end Pattern

/-- What comes behind a place does not matter for its line. -/
theorem Text.lineAt_append {text : List Char} {index : Nat} (within : index ≤ text.length)
    (tail : List Char) : lineAt (text ++ tail) index = lineAt text index := by
  rw [lineAt, lineAt, List.take_append_of_le_length within]

theorem Text.lineAt_mono (text : List Char) {first second : Nat} (ordered : first ≤ second) :
    lineAt text first ≤ lineAt text second := by
  have part : text.take first <+: text.take second := by
    rw [← Nat.min_eq_left ordered, ← List.take_take]
    exact List.take_prefix _ _
  exact Nat.add_le_add_left (part.sublist.count_le '\n') 1

namespace Issue

theorem evalLines_pairwise (text : List Char) : (evalLines text).Pairwise (· < ·) := by
  rw [evalLines_eq]
  refine pairwise_eraseReps (List.pairwise_map.mpr ?_)
  exact (Pattern.evalCall.startsFrom_pairwise 0 0 false text).imp fun below =>
    lineAt_mono text (Nat.le_of_lt below)

theorem mem_evalLines {text : List Char} {line : Nat} :
    line ∈ evalLines text ↔ ∃ start, EvalAt text start ∧ line = lineAt text start := by
  rw [evalLines_eq, mem_eraseReps, List.mem_map]
  simp only [Pattern.mem_starts_evalCall, eq_comm]

/-- The rule for `eval` finds nothing where `eval` is not called. Else it finds one issue, at the
first line with a call, and its description lists the lines with calls: those that the calls stand on
when line breaks are counted from the start of the text, in order and each once. -/
theorem evalCalls_numbered (text : List Char) :
    (evalCalls text = none ↔ ∀ start, ¬EvalAt text start) ∧
      ∃ found : List Nat, found.Pairwise (· < ·) ∧
        (∀ line, line ∈ found ↔ ∃ start, EvalAt text start ∧ line = lineAt text start) ∧
        evalCalls text = found.head?.map fun first =>
          ⟨.critical, evalDescription found, first, .unsafeEval⟩ := by
  have positive : ∀ line ∈ evalLines text, max line 1 = line := fun line member => by
    obtain ⟨start, -, rfl⟩ := mem_evalLines.mp member
    exact Nat.max_eq_left (Nat.le_add_right 1 _)
  refine ⟨?_, evalLines text, evalLines_pairwise text, fun line => mem_evalLines, ?_⟩
  · rw [evalCalls, Option.map_eq_none_iff, List.head?_eq_none_iff, List.eq_nil_iff_forall_not_mem]
    constructor
    · exact fun none start call => none _ (mem_evalLines.mpr ⟨start, call, rfl⟩)
    · rintro never line member
      obtain ⟨start, call, -⟩ := mem_evalLines.mp member
      exact never start call
  · rw [evalCalls]
    refine Option.map_congr fun first here => ?_
    rw [make, positive first (List.mem_of_mem_head? here)]

end Issue

end SnippetAudit
