import SnippetAudit.Classify
import SnippetAudit.Issue.Rules
import SnippetAudit.Report.Basic
import SnippetAudit.Span

/-!
The analysis of one snippet: its report, and the events that led to it. The stages of an analysis
follow one another, and each tells what it has decided before the next one begins. A listener hears
the events one by one as they happen; if it fails at one of them there is no report.
-/

namespace SnippetAudit

section Aloud

variable {m : Type → Type} [Monad m] (tell : Event → m Unit)

/-- The issues of a text. When all of them are found, each is told of. -/
def Issue.detectAloud (text : List Char) (metrics : LineMetrics) (decisions : Nat)
    (thresholds : Thresholds) : m (List Issue) := do
  let issues := detect text metrics decisions thresholds
  issues.forM fun issue => tell issue.event
  return issues

/-- Whether any span calls itself. Each one that does is told of. -/
def Span.recursiveAloud (spans : List Span) : m Bool :=
  (recursive spans).foldlM (fun _ span => do
    tell (.recursion span.name)
    return true) false

/-- A class of growth, of which is told what decided it. -/
def Classify.aloud (judged : Growth × Event) : m Growth := do
  tell judged.2
  return judged.1

/-- The report on any text, the empty one included, with its events told on the way. -/
def Report.aloud (settings : Settings) (text : List Char) : m Report := do
  let metrics := LineMetrics.ofText text
  let decisions := decisionCount text
  let issues ← Issue.detectAloud tell text metrics decisions settings.thresholds
  let spans := Span.extract text
  let recursive ← Span.recursiveAloud tell spans
  let time ← Classify.aloud tell (Classify.time text recursive)
  let space ← Classify.aloud tell (Classify.space text recursive)
  let score := Score.aggregate metrics decisions issues settings.weights
  return {
    score := score.score
    status := score.status
    metrics :=
      { codeLines := metrics.code, share := metrics.share, decisions
        readability := score.readability, maintainability := score.maintainability
        time, space }
    issues }

end Aloud

/-- The report on a text when nobody listens. -/
def Report.silent (settings : Settings) (text : List Char) : Report :=
  Id.run (Report.aloud (fun _ => pure ()) settings text)

/-- What an analysis comes to: a report, and the events on the way. -/
@[ext]
structure Analysis where
  report : Report
  events : List Event

/-- Keeps an event behind those that are kept already. -/
def Event.keep (event : Event) : StateM (Array Event) Unit :=
  modify (·.push event)

/-- The analysis of any text, the empty one included, with all its events kept. -/
def Analysis.of (settings : Settings) (text : List Char) : Analysis :=
  let (report, events) := (Report.aloud Event.keep settings text).run #[]
  ⟨report, events.toList⟩

/-- Why a snippet is not analysed. -/
inductive Refusal where
  | empty
  | tooLarge (size limit : Nat)
  | failed (reason : String)
deriving DecidableEq, Repr

def Refusal.message : Refusal → String
  | empty => "No code provided for analysis."
  | tooLarge size limit => s!"Snippet is {size} bytes, larger than the {limit} byte limit"
  | failed reason => "Analysis error: " ++ reason

/-- The caller gave something that cannot be analysed. -/
def Refusal.isCallers : Refusal → Bool
  | empty => true
  | tooLarge _ _ => true
  | failed _ => false

/-- How a listener fails: with words of its own or without. -/
inductive Breakdown where
  | worded (reason : String)
  | wordless
deriving DecidableEq, Repr

def Breakdown.reason : Breakdown → String
  | worded reason => reason
  | wordless => "analysis panicked"

/-- A listener: what it does at each event, counted from zero. -/
abbrev Listener := Nat → Event → Option Breakdown

namespace Listener

def quiet : Listener :=
  fun _ _ => none

def failingAt (index : Nat) (breakdown : Breakdown) : Listener :=
  fun heard _ => if heard = index then some breakdown else none

/-- Passes an event on, unless the listener fails at it. The state counts the events heard. -/
def hear {m : Type → Type} [Monad m] (listener : Listener) (pass : Event → m Unit)
    (event : Event) : ExceptT Breakdown (StateT Nat m) Unit := do
  let heard ← get
  match listener heard event with
  | some breakdown => throw breakdown
  | none =>
    set (heard + 1)
    monadLift (pass event)

end Listener

/-- Why a snippet of this many bytes is refused before it is analysed. -/
def sizeRefusal? (settings : Settings) (text : String) : Option Refusal :=
  let size := text.utf8ByteSize
  if size = 0 then some .empty
  else if settings.limits.maxInputBytes < size then
    some (.tooLarge size settings.limits.maxInputBytes)
  else none

/-- The report on a snippet that may be refused, with a listener that may fail. If it does, nothing
of the report is left. -/
def examine {m : Type → Type} [Monad m] (settings : Settings) (listener : Listener)
    (pass : Event → m Unit) (text : String) : m (Except Refusal Report) := do
  match sizeRefusal? settings text with
  | some refusal => return .error refusal
  | none =>
    match ← (Report.aloud (listener.hear pass) settings text.toList).run.run' 0 with
    | .error breakdown => return .error (.failed breakdown.reason)
    | .ok report => return .ok report

/-- The analysis of a snippet that may be refused, with a listener that may fail. -/
def analyze (settings : Settings) (listener : Listener) (text : String) :
    Except Refusal Analysis :=
  let (result, events) := (examine settings listener Event.keep text).run #[]
  result.map fun report => ⟨report, events.toList⟩

end SnippetAudit
