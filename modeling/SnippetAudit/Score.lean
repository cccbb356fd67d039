import SnippetAudit.Decision
import SnippetAudit.Line
import SnippetAudit.Settings.Basic

/-!
Scores: plain arithmetic over the issues, the comments and the decisions of a text. Neither the
order of the issues nor their lines and descriptions matter.
-/

namespace SnippetAudit

/-- The overall verdict on a text. -/
inductive Status where
  | excellent
  | needsImprovement
  | poorQuality
deriving DecidableEq, Repr, Inhabited

namespace Status

def all : List Status :=
  [excellent, needsImprovement, poorQuality]

def name : Status → String
  | excellent => "Excellent"
  | needsImprovement => "Needs Improvement"
  | poorQuality => "Poor Quality"

def ofName? (name : String) : Option Status :=
  all.find? (·.name == name)

def ofScore (score : Nat) : Status :=
  if 80 ≤ score then excellent
  else if 50 ≤ score then needsImprovement
  else poorQuality

/-- The class by which a style sheet shows a verdict. -/
def styleClass : Status → String
  | excellent => "excellent"
  | needsImprovement => "needs-improvement"
  | poorQuality => "poor-quality"

end Status

/-- What is derived from the issues and numbers of one text. -/
structure Score where
  score : Nat
  readability : Float
  maintainability : Nat
  status : Status
deriving Inhabited

namespace Score

/-- What issues cost together, as far as a count can tell. -/
def penalty (issues : List Issue) (weights : Weights) : Nat :=
  issues.foldl (fun sum issue => min maxCount (sum + weights.of issue.severity)) 0

/-- A hundred less what the issues cost, but at least zero. -/
def points (issues : List Issue) (weights : Weights) : Nat :=
  100 - penalty issues weights

/-- Ten less what is taken for few comments, long lines and deep nesting, kept between zero and
ten, to one decimal. -/
def readabilityOf (share : Float) (issues : List Issue) : Float :=
  let missing := (20.0 - share) / 5.0
  let documentation := if 0.0 < missing then missing else 0.0
  let raw := 10.0 - documentation - Float.ofNat (Issue.countOf .longLine issues) * 1.0 -
    Float.ofNat (Issue.countOf .deepNesting issues) * 1.5
  let kept := if raw < 0.0 then 0.0 else if 10.0 < raw then 10.0 else raw
  Decimal.roundTenth kept

/-- A hundred less three for each decision, ten for each complexity issue and twenty for each
logical one, but at least zero. -/
def maintainabilityOf (decisions : Nat) (issues : List Issue) : Nat :=
  100 - (3 * decisions + 10 * Issue.countOf .complexity issues +
    20 * Issue.countOf .logicalForElse issues)

/-- Everything derived from the numbers and issues of a text. -/
def aggregate (metrics : LineMetrics) (decisions : Nat) (issues : List Issue) (weights : Weights) :
    Score :=
  let score := points issues weights
  { score, readability := readabilityOf metrics.share issues,
    maintainability := maintainabilityOf decisions issues, status := .ofScore score }

end Score

end SnippetAudit
