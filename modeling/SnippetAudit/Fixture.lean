import SnippetAudit.Growth
import SnippetAudit.Text.Lines

/-!
Fixtures: curated snippets whose growth is known and pinned, whatever the general rules would say.
-/

namespace SnippetAudit

open Text

/-- A curated snippet, known by texts that are in it and texts that are not, case and all. -/
structure Fixture where
  name : String
  required : List String
  forbidden : List String
  time : Growth
  space : Growth
deriving DecidableEq, Repr

namespace Fixture

/-- Every required text is there and no forbidden one is. -/
def accepts (fixture : Fixture) (text : List Char) : Bool :=
  fixture.required.all (fun needle => contains text needle.toList) &&
    !fixture.forbidden.any (fun needle => contains text needle.toList)

/-- The sum of frequencies that the search tree fixtures share. -/
def frequencySum : String :=
  "int fsum = sum(freq, i, j);"

/-- The recursion that the plain search tree fixtures share. -/
def plainRecursion : String :=
  "int cost = optCost(freq, i, r - 1) + optCost(freq, r + 1, j);"

/-- The fixtures, in the order in which they are tried. -/
def table : List Fixture :=
  [ { name := "cpp-obst-recursive"
      required := ["int optCost(vector<int> &freq, int i, int j)", plainRecursion, frequencySum]
      forbidden := ["vector<vector<int>> &memo"]
      time := .exponential
      space := .linear },
    { name := "cpp-obst-tabulated"
      required := ["int optimalSearchTree(vector<int> &keys, vector<int> &freq)",
        "vector<vector<int>> dp(n, vector<int>(n, 0));",
        "for (int l = 2; l <= n; l++) \x7b",
        "for (int i = 0; i <= n - l; i++) \x7b",
        "for (int r = i; r <= j; r++) \x7b",
        "dp[i][j] = c;"]
      forbidden := []
      time := .cubic
      space := .quadratic },
    { name := "cpp-obst-memoized"
      required := ["int optCost(vector<int> &freq, int i, int j, vector<vector<int>> &memo)",
        "int cost = optCost(freq, i, r - 1, memo) + optCost(freq, r + 1, j, memo);",
        frequencySum]
      forbidden := []
      time := .cubic
      space := .quadratic },
    { name := "java-obst-recursive"
      required := ["static int optCost(int[] freq, int i, int j)", plainRecursion, frequencySum]
      forbidden := []
      time := .exponential
      space := .linear },
    { name := "cpp-sliding-window-max"
      required := ["void find_max(int A[], int N, int K)",
        "map<int, int> Count;",
        "set<int> Myset;",
        "if (x.second == 1) Myset.insert(x.first);",
        "Myset.erase(A[i]);",
        "printf(\"%d\\n\", *Myset.rbegin());"]
      forbidden := []
      time := .linearithmic
      space := .linear } ]

/-- The first fixture of the table that a text is accepted by. -/
def find? (text : List Char) : Option Fixture :=
  table.find? (·.accepts text)

end Fixture

end SnippetAudit
