import SnippetAudit.Decimal.Layout
import SnippetAudit.Issue.Basic

/-!
Settings: when rules fire, what issues cost, how large a snippet may be and where reports are
archived. Valid settings keep the two complexity thresholds apart, lines and snippets possible, and
the weights in the order of the severities.
-/

namespace SnippetAudit

/-- When the rules fire. -/
structure Thresholds where
  maxLineLength : Nat := 100
  complexityHigh : Nat := 18
  complexityMedium : Nat := 10
  documentationMinCodeLines : Nat := 30
  documentationMinShare : Float := 15.0
  debugOutputMin : Nat := 3
  maxNestingDepth : Nat := 5
deriving Inhabited

/-- What an issue of each severity costs. -/
structure Weights where
  critical : Nat := 40
  high : Nat := 25
  medium : Nat := 15
  low : Nat := 7
  info : Nat := 2
deriving DecidableEq, Repr, Inhabited

/-- How large a snippet may be. -/
structure Limits where
  maxInputBytes : Nat := 256 * 1024
deriving DecidableEq, Repr, Inhabited

/-- Whether and where reports are archived. -/
structure ArchiveSettings where
  enabled : Bool := true
  path : String := ".codesense/reports.jsonl"
deriving DecidableEq, Repr, Inhabited

/-- All settings. -/
structure Settings where
  thresholds : Thresholds := {}
  weights : Weights := {}
  limits : Limits := {}
  archive : ArchiveSettings := {}
deriving Inhabited

def Weights.of (weights : Weights) : Severity → Nat
  | .critical => weights.critical
  | .high => weights.high
  | .medium => weights.medium
  | .low => weights.low
  | .info => weights.info

def Weights.toList (weights : Weights) : List Nat :=
  Severity.all.map weights.of

/-- Why settings are refused. -/
inductive Settings.Problem where
  | complexityOrder (medium high : Nat)
  | shareRange (share : Float)
  | noLineLength
  | weightOrder (weights : Weights)
  | noInputBytes

namespace Settings

def bracketed (numbers : List Nat) : String :=
  "[" ++ ", ".intercalate (numbers.map toString) ++ "]"

def Problem.message : Problem → String
  | complexityOrder medium high =>
    s!"complexity_medium ({medium}) must be lower than complexity_high ({high})"
  | shareRange share =>
    "documentation_min_comment_percentage must be within 0-100, got " ++
      Decimal.Layout.plain.text share
  | noLineLength => "max_line_length must be positive"
  | weightOrder weights =>
    "Severity weights must not increase as severity decreases, got " ++ bracketed weights.toList
  | noInputBytes => "max_input_bytes must be positive"

def descends : List Nat → Bool
  | a :: b :: rest => decide (b ≤ a) && descends (b :: rest)
  | _ => true

def problemOfThresholds? (thresholds : Thresholds) : Option Problem :=
  if thresholds.complexityHigh ≤ thresholds.complexityMedium then
    some (.complexityOrder thresholds.complexityMedium thresholds.complexityHigh)
  else if !(0.0 ≤ thresholds.documentationMinShare && thresholds.documentationMinShare ≤ 100.0) then
    some (.shareRange thresholds.documentationMinShare)
  else if thresholds.maxLineLength = 0 then some .noLineLength
  else none

/-- The problem with weights: a milder issue costs more than a worse one. -/
def problemOfWeights? (weights : Weights) : Option Problem :=
  if descends weights.toList then none else some (.weightOrder weights)

/-- The problem with limits: no snippet would be small enough. -/
def problemOfLimits? (limits : Limits) : Option Problem :=
  if limits.maxInputBytes = 0 then some .noInputBytes else none

/-- The first problem with settings, section by section. -/
def problem? (settings : Settings) : Option Problem :=
  (problemOfThresholds? settings.thresholds).or
    ((problemOfWeights? settings.weights).or (problemOfLimits? settings.limits))

end Settings

end SnippetAudit
