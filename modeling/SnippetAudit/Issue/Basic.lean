/-!
Issues: what a rule found wrong with a text, how bad it is and where.
-/

namespace SnippetAudit

/-- How bad an issue is, the worst first. -/
inductive Severity where
  | critical
  | high
  | medium
  | low
  | info
deriving DecidableEq, Repr, Inhabited

namespace Severity

def all : List Severity :=
  [critical, high, medium, low, info]

def name : Severity → String
  | critical => "critical"
  | high => "high"
  | medium => "medium"
  | low => "low"
  | info => "info"

def ofName? (name : String) : Option Severity :=
  all.find? (·.name == name)

end Severity

/-- The rules that find issues. -/
inductive Rule where
  | longLine
  | unsafeEval
  | complexity
  | lowDocumentation
  | debugOutput
  | deepNesting
  | logicalForElse
deriving DecidableEq, Repr, Inhabited

namespace Rule

/-- All rules, in the order in which they are applied. -/
def all : List Rule :=
  [longLine, unsafeEval, complexity, lowDocumentation, debugOutput, deepNesting, logicalForElse]

def name : Rule → String
  | longLine => "long-line"
  | unsafeEval => "unsafe-eval"
  | complexity => "complexity"
  | lowDocumentation => "low-documentation"
  | debugOutput => "debug-output"
  | deepNesting => "deep-nesting"
  | logicalForElse => "logical-for-else"

def title : Rule → String
  | longLine => "LongLine"
  | unsafeEval => "UnsafeEval"
  | complexity => "Complexity"
  | lowDocumentation => "LowDocumentation"
  | debugOutput => "DebugOutput"
  | deepNesting => "DeepNesting"
  | logicalForElse => "LogicalForElse"

def ofName? (name : String) : Option Rule :=
  all.find? (·.name == name)

end Rule

/-- Something wrong with a text. Lines count from one; an issue of no line in particular is at
line one. A stored issue may carry any line. -/
structure Issue where
  severity : Severity
  description : String
  line : Nat
  rule : Rule
deriving DecidableEq, Repr, Inhabited

namespace Issue

/-- An issue at a line, or at line one if the line is none. -/
def make (rule : Rule) (severity : Severity) (line : Nat) (description : String) : Issue :=
  ⟨severity, description, max line 1, rule⟩

def countOf (rule : Rule) (issues : List Issue) : Nat :=
  issues.countP (·.rule == rule)

def countAs (severity : Severity) (issues : List Issue) : Nat :=
  issues.countP (·.severity == severity)

end Issue

end SnippetAudit
