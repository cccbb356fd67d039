/-!
Classes of growth, by which time and space are labelled.
-/

namespace SnippetAudit

/-- How a cost grows with the size of the input. -/
inductive Growth where
  | constant
  | logarithmic
  | linear
  | linearithmic
  | quadratic
  | cubic
  | exponential
  | exponentialOrFactorial
deriving DecidableEq, Repr, Inhabited

namespace Growth

/-- All classes, from the slowest growth to the fastest. -/
def all : List Growth :=
  [constant, logarithmic, linear, linearithmic, quadratic, cubic, exponential,
    exponentialOrFactorial]

def label : Growth → String
  | constant => "O(1)"
  | logarithmic => "O(log N)"
  | linear => "O(N)"
  | linearithmic => "O(N log N)"
  | quadratic => "O(N^2)"
  | cubic => "O(N^3)"
  | exponential => "O(2^N)"
  | exponentialOrFactorial => "O(2^N) or O(N!)"

/-- The class with a given label. No two classes share one. -/
def ofLabel? (label : String) : Option Growth :=
  all.find? (·.label == label)

def unknownLabel (label : String) : String :=
  "unknown complexity label '" ++ label ++ "'"

end Growth

end SnippetAudit
