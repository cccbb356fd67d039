import SnippetAudit.Event

/-!
Notices: what a command says about its work while it is at it, by how grave it is, and which of them
are shown.
-/

namespace SnippetAudit

/-- How grave a notice is, the gravest first. -/
inductive Level where
  | error
  | warn
  | info
  | debug
  | trace
deriving DecidableEq, Repr, Inhabited

namespace Level

def all : List Level :=
  [error, warn, info, debug, trace]

def name : Level → String
  | error => "error"
  | warn => "warn"
  | info => "info"
  | debug => "debug"
  | trace => "trace"

def rank : Level → Nat
  | error => 1
  | warn => 2
  | info => 3
  | debug => 4
  | trace => 5

/-- The level that the given count of requests for more notices stands for. -/
def ofVerbosity : Nat → Level
  | 0 => warn
  | 1 => info
  | _ => debug

end Level

/-- A notice. One that is given while a snippet is analysed carries the size of the snippet. -/
structure Notice where
  level : Level
  bytes : Option Nat
  text : String
deriving DecidableEq, Repr, Inhabited

namespace Notice

def plain (level : Level) (text : String) : Notice :=
  ⟨level, none, text⟩

/-- What a notice belongs to, as it stands before the notice. -/
def scope (notice : Notice) : String :=
  match notice.bytes with
  | none => ""
  | some bytes => "analyze\x7bbytes=" ++ toString bytes ++ "\x7d: "

def line (notice : Notice) : String :=
  notice.level.name.toUpper ++ " " ++ notice.scope ++ notice.text

end Notice

/-- Which notices are shown: none, or those at least as grave as a level. -/
inductive NoticeFilter where
  | off
  | upTo (level : Level)
deriving DecidableEq, Repr, Inhabited

namespace NoticeFilter

def shows (filter : NoticeFilter) (notice : Notice) : Bool :=
  match filter with
  | off => false
  | upTo level => notice.level.rank ≤ level.rank

/-- The filter that a word stands for: the name of a level in any case, or its place; nothing stands
for the gravest level, and any other word for none. -/
def ofText (text : String) : NoticeFilter :=
  if text.isEmpty then upTo .error
  else
    let isMeant (level : Level) := level.name == text.toLower || toString level.rank == text
    match Level.all.find? isMeant with
    | some level => upTo level
    | none => off

end NoticeFilter

def Event.text : Event → String
  | .issue rule severity line =>
    "issue detected kind=" ++ rule.title ++ " severity=" ++ severity.name ++
      " line=" ++ toString line
  | .recursion function => "self-recursive function detected function=" ++ String.ofList function
  | .pinned dimension fixture growth =>
    "signature override applied dimension=" ++ dimension.name ++ " signature=\"" ++ fixture ++
      "\" label=" ++ growth.label
  | .judged dimension rule growth =>
    "complexity heuristic matched dimension=" ++ dimension.name ++ " rule=\"" ++ rule ++
      "\" label=" ++ growth.label

end SnippetAudit
