import SnippetAudit.Detector
import SnippetAudit.Issue.Basic
import SnippetAudit.Line
import SnippetAudit.Settings.Basic

/-!
The rules that find issues. Each looks at the whole text, or at numbers taken from it, on its own; a
text may break any of them together.
-/

namespace SnippetAudit

open Text

namespace Pattern

def evalCall : Pattern :=
  sequence [edge, exactly ["eval"], blanks, char '(']

def printing : Pattern :=
  choice (exactly ["console.log"]) [exactly ["System.out.println"], exactly ["printf"],
    sequence [exactly ["print"], blanks, char '(']]

/-- A loop over members, and an `else:` anywhere after it. -/
def forElse : Pattern :=
  sequence [exactly ["for"], someBlanks, many inLine, someBlanks, exactly ["in"], someBlanks,
    many inLine, char ':', blanks, few anything, exactly ["else:"]]

end Pattern

namespace Issue

/-- An issue for each line with more characters than allowed. -/
def longLines (text : List Char) (limit : Nat) : List Issue :=
  (lines text).zipIdx.filterMap fun (line, index) =>
    let length := line.length
    if limit < length then
      some (make .longLine .medium (index + 1)
        s!"Line {index + 1} is too long ({length} chars). Max recommended is {limit}.")
    else none

/-- The line numbers of increasing indices into a text. `index` and `line` are those of the
character the walk has come to. -/
def linesAt (index line : Nat) (found : List Nat) : List Char → List Nat → List Nat
  | _, [] => found.reverse
  | [], _ :: _ => found.reverse
  | c :: text, sought :: rest =>
    let line' := if c = '\n' then line + 1 else line
    if index = sought then linesAt (index + 1) line' (line :: found) text rest
    else linesAt (index + 1) line' found text (sought :: rest)

/-- The lines on which a call of `eval` starts, each once. -/
def evalLines (text : List Char) : List Nat :=
  (linesAt 0 1 [] text ((Pattern.evalCall.occurrences text).map (·.start.index))).eraseReps

/-- What is said of the lines on which `eval` is called. -/
def evalDescription (found : List Nat) : String :=
  "Avoid using 'eval()'. Found on line(s): " ++ ", ".intercalate (found.map toString) ++
    ". This can lead to security vulnerabilities."

/-- One issue for all calls of `eval`, at the first of them. -/
def evalCalls (text : List Char) : Option Issue :=
  let found := evalLines text
  found.head?.map fun first => make .unsafeEval .critical first (evalDescription found)

/-- An issue for more decisions than a reader can follow. -/
def complexity (decisions : Nat) (thresholds : Thresholds) : Option Issue :=
  if thresholds.complexityHigh < decisions then
    some (make .complexity .high 1
      (s!"Very high estimated complexity ({decisions}). This code is likely hard to understand, " ++
        "test, and maintain."))
  else if thresholds.complexityMedium < decisions then
    some (make .complexity .medium 1
      s!"High estimated complexity ({decisions}). Consider refactoring for simplicity.")
  else none

def documentation (metrics : LineMetrics) (thresholds : Thresholds) : Option Issue :=
  if thresholds.documentationMinCodeLines < metrics.code ∧
      metrics.share < thresholds.documentationMinShare then
    some (make .lowDocumentation .medium 1
      ("Low comment percentage (" ++ Decimal.Layout.plain.text metrics.share ++
        "%). Code might be difficult to understand without comments."))
  else none

def debugOutput (text : List Char) (least : Nat) : Option Issue :=
  let calls := Pattern.printing.count text
  if least ≤ calls then
    some (make .debugOutput .low 1
      s!"Excessive debug output ({calls} instances). Remove debug logs from production code.")
  else none

/-- The depth of a line: one for every four blanks it starts with, and one more for each tab
among them. -/
def nestingDepth (line : List Char) : Nat :=
  let leading := line.takeWhile isBlank
  leading.length / 4 + leading.count '\t'

/-- The depth of the deepest line that is not blank; zero if there is none. -/
def deepestNesting (text : List Char) : Nat :=
  (((lines text).filter (!isBlankLine ·)).map nestingDepth).foldl max 0

def nesting (text : List Char) (limit : Nat) : Option Issue :=
  let deepest := deepestNesting text
  if limit < deepest then
    some (make .deepNesting .medium 1
      (s!"Potentially deep nesting detected (max depth: {deepest}). " ++
        "Consider refactoring to reduce complexity."))
  else none

/-- An issue for a loop with an `else` that runs although an `if` was met. The loop with its
`else`, an `if` and the lack of a `break` are sought anywhere in the text. -/
def forElse (text : List Char) : Option Issue :=
  if Pattern.forElse.occursIn text && contains text "if ".toList &&
      !contains text "break".toList then
    let line := match (lines text).findIdx? (contains · "for ".toList) with
      | some index => index + 1
      | none => 1
    some (make .logicalForElse .high line
      ("Logical Issue: 'for...else' loop in Python used with an 'if' condition but no 'break'. " ++
        "The 'else' block will execute even if the 'if' condition is met within the loop."))
  else none

def detect (text : List Char) (metrics : LineMetrics) (decisions : Nat) (thresholds : Thresholds) :
    List Issue :=
  longLines text thresholds.maxLineLength ++ ((evalCalls text).toList ++
    ((complexity decisions thresholds).toList ++ ((documentation metrics thresholds).toList ++
      ((debugOutput text thresholds.debugOutputMin).toList ++
        ((nesting text thresholds.maxNestingDepth).toList ++ (forElse text).toList)))))

end Issue

end SnippetAudit
