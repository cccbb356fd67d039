import SnippetAudit.Detector
import SnippetAudit.Event
import SnippetAudit.Fixture

/-!
Growth of time and space, judged from the text. A fixture decides first and for both; then the rules
of each dimension are tried in order, and the first that fires decides.
-/

namespace SnippetAudit

/-- A rule by its name, and the growth it stands for. -/
structure Verdict where
  rule : String
  growth : Growth
deriving DecidableEq, Repr

namespace Classify

/-- This many branching words make recursion count as exponential. -/
def branchMin : Nat := 5

/-- More groups than this count as collections that grow. -/
def groupLimit : Nat := 2

/-- More additions of quoted text than this count as a text that grows. -/
def concatenationLimit : Nat := 5

def timeVerdict (text : List Char) (recursive : Bool) : Verdict :=
  if recursive && decide (branchMin ≤ branchCount text) then
    ⟨"branching-recursion", .exponentialOrFactorial⟩
  else if decide (2 ≤ loopCount text) || hasNestedLoop text then ⟨"nested-loops", .quadratic⟩
  else if hasSorting text then ⟨"sort-or-search-call", .linearithmic⟩
  else if hasTreeDescent text || hasHalvingLoop text then ⟨"logarithmic-descent", .logarithmic⟩
  else if hasIteration text then ⟨"linear-iteration", .linear⟩
  else ⟨"constant", .constant⟩

def spaceVerdict (text : List Char) (recursive : Bool) : Verdict :=
  if hasAllocation text then ⟨"dynamic-allocation", .linear⟩
  else if groupLimit < groupCount text then ⟨"literal-groups", .linear⟩
  else if concatenationLimit < concatenationCount text then ⟨"string-concatenation", .linear⟩
  else if recursive then ⟨"recursion-depth", .linear⟩
  else ⟨"constant", .constant⟩

/-- The growth of time, and the event that tells what decided it. -/
def time (text : List Char) (recursive : Bool) : Growth × Event :=
  match Fixture.find? text with
  | some fixture => (fixture.time, .pinned .time fixture.name fixture.time)
  | none =>
    let verdict := timeVerdict text recursive
    (verdict.growth, .judged .time verdict.rule verdict.growth)

/-- The growth of space, and the event that tells what decided it. -/
def space (text : List Char) (recursive : Bool) : Growth × Event :=
  match Fixture.find? text with
  | some fixture => (fixture.space, .pinned .space fixture.name fixture.space)
  | none =>
    let verdict := spaceVerdict text recursive
    (verdict.growth, .judged .space verdict.rule verdict.growth)

end Classify

end SnippetAudit
