import SnippetAudit.Proofs.Issue.Repetition
import SnippetAudit.Proofs.Issue.Rules
import SnippetAudit.Proofs.Pattern.Walk
import SnippetAudit.Proofs.Text.Lines

/-!
The lines that issues are at. Some rules number the lines, some count line breaks on the way to a
place, and some name the first line whatever they have found; all of them stay within the lines that
the text has.
-/

namespace SnippetAudit

open Text

namespace Issue

variable {text : List Char} {issue : Issue}

theorem map_line_longLines (text : List Char) (limit : Nat) :
    (longLines text limit).map Issue.line =
      ((lines text).zipIdx.filter fun (line, _) => limit < line.length).map (·.2 + 1) := by
  rw [longLines]
  induction (lines text).zipIdx with
  | nil => rfl
  | cons numbered later ih =>
    obtain ⟨line, index⟩ := numbered
    rw [List.filterMap_cons, List.filter_cons]
    by_cases long : limit < line.length
    · have positive : max (index + 1) 1 = index + 1 := Nat.max_eq_left (Nat.le_add_left 1 index)
      simp only [long, if_true, decide_true, List.map_cons, List.cons.injEq]
      exact ⟨positive, ih⟩
    · simp only [long, if_false, decide_false, ih]
      rfl

theorem mem_map_line_longLines {limit number : Nat} :
    number ∈ (longLines text limit).map Issue.line ↔
      ∃ index line, (lines text)[index]? = some line ∧ limit < line.length ∧ number = index + 1 := by
  rw [map_line_longLines]
  simp only [List.mem_map, List.mem_filter, decide_eq_true_eq, Prod.exists,
    List.mk_mem_zipIdx_iff_getElem?]
  constructor
  · rintro ⟨line, index, ⟨there, long⟩, rfl⟩
    exact ⟨index, line, there, long, rfl⟩
  · rintro ⟨index, line, there, long, rfl⟩
    exact ⟨line, index, ⟨there, long⟩, rfl⟩

theorem pairwise_map_line_longLines (text : List Char) (limit : Nat) :
    ((longLines text limit).map Issue.line).Pairwise (· < ·) := by
  have numbered : ((lines text).zipIdx.map Prod.snd).Pairwise (· < ·) := by
    rw [List.zipIdx_map_snd]
    exact List.pairwise_lt_range'
  rw [map_line_longLines, List.pairwise_map]
  refine ((List.pairwise_map.mp numbered).filter _).imp fun below => ?_
  exact Nat.succ_lt_succ below

/-- One character further on, the line breaks before a place are counted from there. -/
theorem count_take_cons {c : Char} {index place : Nat} (line : Nat) (ahead : index < place) :
    line + ((c :: text).take (place - index)).count '\n' =
      (if c = '\n' then line + 1 else line) + (text.take (place - (index + 1))).count '\n' := by
  obtain ⟨more, rfl⟩ := Nat.exists_eq_add_of_lt ahead
  have one : index + more + 1 - index = more + 1 := by omega
  have next : index + more + 1 - (index + 1) = more := by omega
  rw [one, next, List.take_succ_cons, List.count_cons]
  by_cases newline : c = '\n'
  · simp only [newline, BEq.rfl, if_true]
    omega
  · simp only [beq_false_of_ne newline, if_neg newline, Bool.false_eq_true, if_false, Nat.add_zero]

/-- The walk that numbers increasing indices counts the line breaks before each of them. -/
theorem linesAt_eq {index line : Nat} {found sought : List Nat}
    (ascending : sought.Pairwise (· < ·))
    (within : ∀ place ∈ sought, index ≤ place ∧ place < index + text.length) :
    linesAt index line found text sought =
      found.reverse ++ sought.map fun place => line + (text.take (place - index)).count '\n' := by
  induction text generalizing index line found sought with
  | nil =>
    cases sought with
    | nil => simp [linesAt]
    | cons place sought =>
      have bounds := within place List.mem_cons_self
      rw [List.length_nil] at bounds
      omega
  | cons c text ih =>
    cases sought with
    | nil => simp [linesAt]
    | cons place sought =>
      have bounds := within place List.mem_cons_self
      obtain ⟨first, later⟩ := List.pairwise_cons.mp ascending
      -- all that is sought behind the next character is within the rest of the text
      have inRest : ∀ other ∈ place :: sought, index < other →
          index + 1 ≤ other ∧ other < index + 1 + text.length := fun other member ahead => by
        have bounds := within other member
        rw [List.length_cons] at bounds
        omega
      have shifted : ∀ others : List Nat, (∀ other ∈ others, index < other) →
          others.map (fun other => (if c = '\n' then line + 1 else line) +
              (text.take (other - (index + 1))).count '\n') =
            others.map fun other => line + ((c :: text).take (other - index)).count '\n' :=
        fun others ahead => List.map_congr_left fun other member =>
          (count_take_cons line (ahead other member)).symm
      rw [linesAt]
      split
      · rename_i here
        have ahead : ∀ other ∈ sought, index < other := fun other member =>
          here ▸ first other member
        rw [ih later fun other member =>
            inRest other (List.mem_cons_of_mem place member) (ahead other member),
          shifted sought ahead, List.map_cons, here, Nat.sub_self, List.take_zero,
          List.count_nil, Nat.add_zero, List.reverse_cons, List.append_assoc,
          List.singleton_append]
      · have ahead : ∀ other ∈ place :: sought, index < other := by
          intro other member
          rcases List.mem_cons.mp member with rfl | behind
          · omega
          · have := first other behind
            omega
        rw [ih ascending fun other member => inRest other member (ahead other member),
          shifted (place :: sought) ahead]

theorem evalLines_eq (text : List Char) :
    evalLines text = ((Pattern.evalCall.starts text).map (lineAt text)).eraseReps := by
  have never : ∀ afterWord, Pattern.evalCall.lengths afterWord [] = [] := fun afterWord => by
    cases afterWord <;> rfl
  have within : ∀ start ∈ Pattern.evalCall.starts text, 0 ≤ start ∧ start < 0 + text.length :=
    fun start member => ⟨Nat.zero_le start, Pattern.lt_of_mem_startsFrom never member⟩
  have ascending : (Pattern.evalCall.starts text).Pairwise (· < ·) :=
    Pattern.evalCall.startsFrom_pairwise 0 0 false text
  rw [evalLines, Pattern.map_start_occurrences, linesAt_eq ascending within]
  rfl

/-- All calls of `eval` are reported at the line of the first. -/
theorem evalCalls_eq (text : List Char) :
    evalCalls text = (Pattern.evalCall.starts text).head?.map fun start =>
      make .unsafeEval .critical (lineAt text start) (evalDescription (evalLines text)) := by
  have first : (evalLines text).head? = (Pattern.evalCall.starts text).head?.map (lineAt text) := by
    rw [evalLines_eq, head?_eraseReps, List.head?_map]
  rw [evalCalls, first, Option.map_map]
  rfl

/-- Every issue is at a line that the text has. -/
theorem line_le_of_mem_detect {metrics : LineMetrics} {decisions : Nat} {thresholds : Thresholds}
    (member : issue ∈ detect text metrics decisions thresholds) :
    1 ≤ issue.line ∧ issue.line ≤ (lines text).length := by
  have some_line : 1 ≤ (lines text).length := by
    rw [lines, length_pieces]
    exact Nat.le_add_left 1 _
  have bounded (rule : Rule) (severity : Severity) (line : Nat) (description : String)
      (bound : line ≤ (lines text).length) :
      1 ≤ (make rule severity line description).line ∧
        (make rule severity line description).line ≤ (lines text).length :=
    ⟨Nat.le_max_right line 1, Nat.max_le.mpr ⟨bound, some_line⟩⟩
  rw [detect_eq_flatMap] at member
  obtain ⟨rule, -, found⟩ := List.mem_flatMap.mp member
  cases rule with
  | longLine =>
    obtain ⟨index, line, there, -, same⟩ :=
      mem_map_line_longLines.mp (List.mem_map_of_mem found)
    obtain ⟨inside, -⟩ := List.getElem?_eq_some_iff.mp there
    omega
  | unsafeEval =>
    rw [foundBy, Option.mem_toList, evalCalls_eq] at found
    obtain ⟨start, -, rfl⟩ := Option.map_eq_some_iff.mp found
    exact bounded _ _ _ _ (lineAt_le text start)
  | complexity =>
    rw [foundBy, Option.mem_toList, complexity] at found
    split at found
    · cases found
      exact bounded _ _ _ _ some_line
    · obtain ⟨_, made⟩ := Option.ite_none_right_eq_some.mp found
      cases made
      exact bounded _ _ _ _ some_line
  | lowDocumentation | debugOutput | deepNesting =>
    obtain ⟨_, made⟩ := Option.ite_none_right_eq_some.mp (Option.mem_toList.mp found)
    cases made
    exact bounded _ _ _ _ some_line
  | logicalForElse =>
    obtain ⟨_, made⟩ := Option.ite_none_right_eq_some.mp (Option.mem_toList.mp found)
    cases made
    refine bounded _ _ _ _ ?_
    split
    · rename_i index here
      obtain ⟨inside, -⟩ := List.findIdx?_eq_some_iff_getElem.mp here
      exact inside
    · exact some_line

/-- The shape of every list of issues: the rules in their order, one issue for each but for lines
that are too long, those lines one after the other and no others, and no line that the text does not
have. -/
theorem detect_shape (text : List Char) (metrics : LineMetrics) (decisions : Nat)
    (thresholds : Thresholds) :
    let issues := detect text metrics decisions thresholds
    let tooLong := (issues.filter (·.rule == .longLine)).map Issue.line
    issues.Pairwise (fun first second => first.rule.rank ≤ second.rule.rank) ∧
      (∀ rule, rule ≠ .longLine → countOf rule issues ≤ 1) ∧
      tooLong.Pairwise (· < ·) ∧
      (∀ number, number ∈ tooLong ↔ ∃ index line, (lines text)[index]? = some line ∧
        thresholds.maxLineLength < line.length ∧ number = index + 1) ∧
      ∀ issue ∈ issues, 1 ≤ issue.line ∧ issue.line ≤ (LineMetrics.ofText text).total := by
  dsimp only
  rw [filter_detect, foundBy]
  refine ⟨detect_pairwise_rank, ?_, pairwise_map_line_longLines _ _, fun number =>
    mem_map_line_longLines, fun issue member => line_le_of_mem_detect member⟩
  intro rule other
  rw [countOf_detect]
  exact length_foundBy_le_one other

end Issue

end SnippetAudit
