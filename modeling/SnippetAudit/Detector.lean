import SnippetAudit.Pattern.Build

/-!
Detectors for what a text seems to do: loops, branches, sorting, searching, allocating. Each takes
constructs with braces and constructs with indentation alike, without regard to case, and reads
comments and quoted text like any other text.
-/

namespace SnippetAudit

open Text

namespace Pattern

/-- An opening parenthesis and the rest of a group on one line. -/
def lineGroup : Pattern :=
  sequence [blanks, char '(', few inLine, char ')']

/-- A loop over the members of something, as in `for x in xs:`. -/
def memberLoop (loopWord : Pattern) : Pattern :=
  sequence [loopWord, someBlanks, many inLine, someBlanks, word sameLetter ["in".toList],
    someBlanks, many inLine, char ':']

def headerLoop : Pattern :=
  sequence [edge, anyCase ["for", "while"], blanks, char '(']

def loop : Pattern :=
  either headerLoop (memberLoop (anyCase ["for"]))

/-- A block of a loop that starts with the given word, and somewhere after it another loop. -/
def loopAround (loopWord : String) : Pattern :=
  sequence [anyCase [loopWord], lineGroup, blanks, char '{', few anything, anyCase ["for", "while"],
    lineGroup]

/-- A loop with another loop somewhere behind its opening. -/
def nestedLoop : Pattern :=
  choice (loopAround "for") [loopAround "while",
    sequence [memberLoop (anyCase ["for"]), blanks, few anything, memberLoop (anyCase ["for"])]]

def branch : Pattern :=
  sequence [edge, anyCase ["if", "else", "switch", "try", "except", "elif"], edge]

/-- A call that sorts, or that searches what is sorted. -/
def sorting : Pattern :=
  sequence [anyCase ["qsort", "mergesort", "quicksort", "heapsort", "sort", "heapify",
    "binarysearch"], char '(']

/-- A search below one child of a node, and then the return of another search. -/
def treeDescent : Pattern :=
  sequence [anyCase ["search"], blanks, char '(', few (· != ')'),
    anyCase ["->left", "->right", ".left", ".right"], many (· != ')'), char ')', blanks, char ';',
    blanks, anyCase ["return"], someBlanks, anyCase ["search"]]

/-- A `while` whose line multiplies or divides by a number. -/
def halvingLoop : Pattern :=
  sequence [edge, anyCase ["while"], blanks, char '(', few inLine, blanks,
    one (fun c => c == '/' || c == '*'), blanks, perhaps (char '='), blanks,
    run (fun c => '0' ≤ c && c ≤ '9'), many inLine, char ')']

def collectionCall : Pattern :=
  sequence [edge, anyCase ["forEach", "map", "filter", "reduce"], edge, blanks, char '(']

def iteration : Pattern :=
  choice headerLoop [memberLoop (anyCase ["for"]), collectionCall]

/-- The types whose construction with `new` allocates. -/
def allocatedTypes : List String :=
  ["Array", "Vector", "List", "Map", "Set", "Object", "Promise", "string", "int[]", "float[]",
    "char[]", "double[]"]

def growingTypes : List String :=
  ["std::vector<", "std::map<", "std::set<", "ArrayList<", "HashMap<", "HashSet<", "LinkedList<",
    "TreeMap<", "TreeSet<"]

/-- A request for memory, as far as the edge of a word follows it. -/
def allocation : Pattern :=
  sequence [edge,
    choice (anyCase ["malloc", "calloc", "realloc"]) [
      sequence [anyCase ["new"], someBlanks, anyCase allocatedTypes],
      anyCase growingTypes,
      sequence [anyCase ["new"], someBlanks, anyCase ["int[", "float[", "double[", "char["]]],
    edge]

/-- A group in brackets or braces, up to the first closing mark of its kind. -/
def literalGroup : Pattern :=
  either (sequence [char '[', many (· != ']'), char ']'])
    (sequence [char '{', many (· != '}'), char '}'])

/-- A mark that opens or closes quoted text: double, single or backward. -/
def isQuote (c : Char) : Bool :=
  [0x22, 0x27, 0x60].contains c.toNat

def concatenation : Pattern :=
  sequence [blanks, char '+', blanks, one isQuote, few inLine, one isQuote]

end Pattern

/-- How many loop headers a text has, nested or not. -/
def loopCount (text : List Char) : Nat :=
  Pattern.loop.count text

/-- A loop is followed by another loop somewhere after its opening. -/
def hasNestedLoop (text : List Char) : Bool :=
  Pattern.nestedLoop.occursIn text

def branchCount (text : List Char) : Nat :=
  Pattern.branch.count text

def hasSorting (text : List Char) : Bool :=
  Pattern.sorting.occursIn text

def hasTreeDescent (text : List Char) : Bool :=
  Pattern.treeDescent.occursIn text

def hasHalvingLoop (text : List Char) : Bool :=
  Pattern.halvingLoop.occursIn text

def hasIteration (text : List Char) : Bool :=
  Pattern.iteration.occursIn text

def hasAllocation (text : List Char) : Bool :=
  Pattern.allocation.occursIn text

/-- How many bracketed or braced groups a text has. -/
def groupCount (text : List Char) : Nat :=
  Pattern.literalGroup.count text

/-- How many quoted texts are added to something. -/
def concatenationCount (text : List Char) : Nat :=
  Pattern.concatenation.count text

end SnippetAudit
