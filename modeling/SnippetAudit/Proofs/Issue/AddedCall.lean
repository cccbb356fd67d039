import SnippetAudit.Decision
import SnippetAudit.Proofs.Issue.EvalCalls
import SnippetAudit.Proofs.Line
import SnippetAudit.Proofs.Pattern.Tail

/-!
A text with one more line that calls `eval`. The line is short, is not indented and takes no decision,
so that the rules about lines, decisions, output, depth and loops find in the longer text what they
found before. Only the rule for `eval` and the rule for comments may find something else.
-/

namespace SnippetAudit

open Text

/-- A line that calls `eval`. -/
def evalLine : List Char :=
  "eval(payload)".toList

theorem stops_evalLine : Stops (· == '(') (trimStart evalLine) :=
  stops_cons (by decide)

theorem lines_append_evalLine (text : List Char) :
    lines (text ++ '\n' :: evalLine) = lines text ++ [evalLine] := by
  have plain : '\n' ∉ evalLine := by decide
  rw [lines, pieces_append_cons, pieces_of_not_mem plain]
  rfl

namespace Pattern

variable {back : List Char}

theorem shortOf_evalCall (shut : Stops (· == '(') (trimStart back)) :
    evalCall.ShortOf ('\n' :: back) :=
  (ShortOf.call (by decide) shut).behind_edge

theorem shortOf_decisionWord : decisionWord.ShortOf ('\n' :: back) :=
  ShortOf.token (by decide)

theorem shortOf_printing (shut : Stops (· == '(') (trimStart back)) :
    printing.ShortOf ('\n' :: back) := by
  have name (spelling : String) (plain : '\n' ∉ spelling.toList) :
      (exactly [spelling]).ShortOf ('\n' :: back) := by
    refine ShortOf.of_newline_not_mem fun place used taken => ?_
    obtain ⟨_, other, listed, rfl⟩ := takes_exactly.mp taken
    rwa [List.mem_singleton.mp listed]
  exact (name "console.log" (by decide)).either ((name "System.out.println" (by decide)).either
    ((name "printf" (by decide)).either (ShortOf.call (by decide) shut)))

/-- A loop with an `else` ends in a colon. -/
theorem shortOf_forElse (absent : ':' ∉ back) : forElse.ShortOf ('\n' :: back) := by
  have absent' : ':' ∉ '\n' :: back := by
    rw [List.mem_cons, not_or]
    exact ⟨by decide, absent⟩
  refine ShortOf.of_last absent' fun place used taken => ?_
  obtain ⟨_, front, last, rfl, named⟩ := exists_takes_last (exactly ["else:"]) rfl taken
  obtain ⟨_, spelling, listed, rfl⟩ := takes_exactly.mp named
  rw [List.mem_singleton.mp listed]
  simp

end Pattern

theorem decisionCount_append_evalLine (text : List Char) :
    decisionCount (text ++ '\n' :: evalLine) = decisionCount text := by
  have words : decisionWord.count evalLine = 0 := by
    rw [Pattern.count_eq_length_starts]
    decide +kernel
  have marks : ('\n' :: evalLine).count '?' = 0 := by decide
  rw [decisionCount, Pattern.shortOf_decisionWord.count_append, words, List.count_append, marks]
  rfl

namespace Issue

theorem longLines_append_evalLine (text : List Char) {limit : Nat} (room : 13 ≤ limit) :
    longLines (text ++ '\n' :: evalLine) limit = longLines text limit := by
  have short : ¬limit < evalLine.length := Nat.not_lt.mpr room
  rw [longLines, longLines, lines_append_evalLine, List.zipIdx_append, List.filterMap_append]
  simp [short]

theorem debugOutput_append_evalLine (text : List Char) (least : Nat) :
    debugOutput (text ++ '\n' :: evalLine) least = debugOutput text least := by
  have none : Pattern.printing.count evalLine = 0 := by
    rw [Pattern.count_eq_length_starts]
    decide +kernel
  have same : Pattern.printing.count (text ++ '\n' :: evalLine) = Pattern.printing.count text := by
    rw [(Pattern.shortOf_printing stops_evalLine).count_append, none, Nat.add_zero]
  rw [debugOutput, debugOutput, same]

theorem nesting_append_evalLine (text : List Char) (limit : Nat) :
    nesting (text ++ '\n' :: evalLine) limit = nesting text limit := by
  have same : deepestNesting (text ++ '\n' :: evalLine) = deepestNesting text := by
    have flat : ([evalLine].filter (!isBlankLine ·)).map nestingDepth = [0] := by decide
    rw [deepestNesting, lines_append_evalLine, List.filter_append, List.map_append, flat,
      List.foldl_append]
    exact Nat.max_zero _
  rw [nesting, nesting, same]

theorem forElse_append_evalLine (text : List Char) :
    forElse (text ++ '\n' :: evalLine) = forElse text := by
  have none : Pattern.forElse.occursIn evalLine = false := by
    have nowhere : Pattern.forElse.starts evalLine = [] := by decide +kernel
    rw [Bool.eq_false_iff, Ne, Pattern.occursIn_iff_starts]
    exact absurd nowhere
  have lacks (needle : String) (plain : '\n' ∉ needle.toList) (some' : needle.toList ≠ [])
      (absent : contains evalLine needle.toList = false) :
      contains (text ++ '\n' :: evalLine) needle.toList = contains text needle.toList := by
    rw [contains_append_newline plain some', absent, Bool.or_false]
  have notLast : [evalLine].findIdx? (contains · "for ".toList) = Option.none := by decide
  rw [forElse, forElse, (Pattern.shortOf_forElse (by decide)).occursIn_append, none, Bool.or_false,
    lacks "if " (by decide) (by decide) (by decide),
    lacks "break" (by decide) (by decide) (by decide), lines_append_evalLine,
    List.findIdx?_append, notLast, Option.map_none, Option.or_none]

/-- The added line has a call, which is behind all calls there were. -/
theorem evalLines_append_evalLine (text : List Char) :
    evalLines (text ++ '\n' :: evalLine) = evalLines text ++ [(lines text).length + 1] := by
  have here : Pattern.evalCall.starts evalLine = [0] := by decide +kernel
  have kept : (Pattern.evalCall.starts text).map (lineAt (text ++ '\n' :: evalLine)) =
      (Pattern.evalCall.starts text).map (lineAt text) := by
    refine List.map_congr_left fun start member => ?_
    exact lineAt_append (Pattern.mem_starts_evalCall.mp member).le_length _
  have last : lineAt (text ++ '\n' :: evalLine) (text.length + 1) = (lines text).length + 1 := by
    have front : (text ++ '\n' :: evalLine).take (text.length + 1) = text ++ ['\n'] := by
      rw [List.take_length_add_append, List.take_succ_cons, List.take_zero]
    rw [lineAt, front, List.count_append, List.count_singleton_self, lines, length_pieces,
      Nat.add_comm]
  have fresh : (lines text).length + 1 ∉ (Pattern.evalCall.starts text).map (lineAt text) := by
    intro member
    obtain ⟨start, -, same⟩ := List.mem_map.mp member
    have bound := lineAt_le text start
    omega
  rw [evalLines_eq, (Pattern.shortOf_evalCall stops_evalLine).starts_append, here, List.map_append, kept,
    List.map_singleton, List.map_singleton, Nat.add_zero, last, eraseReps_append_singleton fresh,
    ← evalLines_eq]

theorem evalCalls_append_evalLine (text : List Char) :
    evalCalls (text ++ '\n' :: evalLine) = some (make .unsafeEval .critical
      ((evalLines text).headD ((lines text).length + 1))
      (evalDescription (evalLines text ++ [(lines text).length + 1]))) := by
  rw [evalCalls, evalLines_append_evalLine]
  cases evalLines text <;> rfl

/-- Every rule but those for `eval` and for comments finds in the longer text what it found before. -/
theorem foundBy_append_evalLine (text : List Char) {thresholds : Thresholds}
    (room : 13 ≤ thresholds.maxLineLength) {rule : Rule} (notCalls : rule ≠ .unsafeEval)
    (notComments : rule ≠ .lowDocumentation) :
    foundBy (text ++ '\n' :: evalLine) (.ofText (text ++ '\n' :: evalLine))
        (decisionCount (text ++ '\n' :: evalLine)) thresholds rule =
      foundBy text (.ofText text) (decisionCount text) thresholds rule := by
  cases rule with
  | longLine => exact longLines_append_evalLine text room
  | unsafeEval => exact absurd rfl notCalls
  | complexity => rw [foundBy, foundBy, decisionCount_append_evalLine]
  | lowDocumentation => exact absurd rfl notComments
  | debugOutput => rw [foundBy, foundBy, debugOutput_append_evalLine]
  | deepNesting => rw [foundBy, foundBy, nesting_append_evalLine]
  | logicalForElse => rw [foundBy, foundBy, forElse_append_evalLine]

/-- Where nothing was found, the rule for `eval` finds the call, and the rule for comments may find
that there are too few of them now. -/
theorem detect_append_evalLine (text : List Char) {thresholds : Thresholds}
    (room : 13 ≤ thresholds.maxLineLength)
    (clean : detect text (.ofText text) (decisionCount text) thresholds = []) :
    ∃ call : Issue, call.rule = .unsafeEval ∧ call.severity = .critical ∧
      detect (text ++ '\n' :: evalLine) (.ofText (text ++ '\n' :: evalLine))
          (decisionCount (text ++ '\n' :: evalLine)) thresholds =
        call :: (documentation (.ofText (text ++ '\n' :: evalLine)) thresholds).toList := by
  have nothing (rule : Rule) (notCalls : rule ≠ .unsafeEval) (notComments : rule ≠ .lowDocumentation) :
      foundBy (text ++ '\n' :: evalLine) (.ofText (text ++ '\n' :: evalLine))
        (decisionCount (text ++ '\n' :: evalLine)) thresholds rule = [] := by
    rw [foundBy_append_evalLine text room notCalls notComments, ← filter_detect, clean,
      List.filter_nil]
  obtain ⟨call, found, isCall, critical⟩ : ∃ call, evalCalls (text ++ '\n' :: evalLine) = some call ∧
      call.rule = .unsafeEval ∧ call.severity = .critical :=
    ⟨_, evalCalls_append_evalLine text, rfl, rfl⟩
  refine ⟨call, isCall, critical, ?_⟩
  rw [detect_eq_flatMap]
  simp only [Rule.all, List.flatMap_cons, List.flatMap_nil, List.append_nil, List.nil_append,
    nothing .longLine (by decide) (by decide), nothing .complexity (by decide) (by decide),
    nothing .debugOutput (by decide) (by decide), nothing .deepNesting (by decide) (by decide),
    nothing .logicalForElse (by decide) (by decide)]
  rw [foundBy, found]
  rfl

/-- Of every rule but those for `eval` and for comments the longer text has the same issues. Its one
issue for `eval` lists the lines that were listed before, if any, and then the added line. -/
theorem filter_detect_append_evalLine (text : List Char) {thresholds : Thresholds}
    (room : 13 ≤ thresholds.maxLineLength) :
    let added := (lines text).length + 1
    let before := detect text (.ofText text) (decisionCount text) thresholds
    let after := detect (text ++ '\n' :: evalLine) (.ofText (text ++ '\n' :: evalLine))
      (decisionCount (text ++ '\n' :: evalLine)) thresholds
    (∀ rule, rule ≠ .unsafeEval → rule ≠ .lowDocumentation →
        after.filter (·.rule == rule) = before.filter (·.rule == rule)) ∧
      before.filter (·.rule == .unsafeEval) = ((evalLines text).head?.map fun first =>
        make .unsafeEval .critical first (evalDescription (evalLines text))).toList ∧
      after.filter (·.rule == .unsafeEval) = [make .unsafeEval .critical
        ((evalLines text).headD added) (evalDescription (evalLines text ++ [added]))] := by
  simp only [filter_detect]
  refine ⟨fun rule notCalls notComments => ?_, rfl, ?_⟩
  · exact foundBy_append_evalLine text room notCalls notComments
  · rw [foundBy, evalCalls_append_evalLine]
    rfl

/-- A call on the first of two lines, a printed value, and a call that has no parenthesis yet. -/
def halfCall : List Char :=
  "eval (a)\nprint(b); eval".toList

theorem filter_detect_halfCall :
    let before := detect halfCall (.ofText halfCall) (decisionCount halfCall) {}
    let after := detect (halfCall ++ '\n' :: evalLine) (.ofText (halfCall ++ '\n' :: evalLine))
      (decisionCount (halfCall ++ '\n' :: evalLine)) {}
    13 ≤ ({} : Thresholds).maxLineLength ∧
      after.filter (·.rule == .debugOutput) = before.filter (·.rule == .debugOutput) ∧
      after.filter (·.rule == .unsafeEval) =
        [make .unsafeEval .critical 1 (evalDescription [1, 3])] := by
  have called : evalLines halfCall = [1] := by
    rw [evalLines_eq]
    decide +kernel
  obtain ⟨others, -, calls⟩ := @filter_detect_append_evalLine halfCall {} (by decide)
  rw [called] at calls
  exact ⟨by decide, others .debugOutput (by decide) (by decide), calls⟩

end Issue

end SnippetAudit
