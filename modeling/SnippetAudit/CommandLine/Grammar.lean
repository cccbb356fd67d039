import SnippetAudit.Display.Basic
import SnippetAudit.Text.Digit

/-!
The grammar of the command line: which commands there are, and which arguments each of them takes.
-/

namespace SnippetAudit.CommandLine

open Text

/-- A command. -/
inductive Verb where
  | analyze
  | batch
  | history
  | init
deriving DecidableEq, Repr

def Verb.name : Verb → String
  | analyze => "analyze"
  | batch => "batch"
  | history => "history"
  | init => "init"

def Verb.all : List Verb :=
  [.analyze, .batch, .history, .init]

def Verb.ofName? (name : String) : Option Verb :=
  all.find? (·.name == name)

def helpWord : String := "help"

/-- Why a command line is not followed. -/
inductive Problem where
  | missingArgument
  | conflict
  | unknownArgument
  | badValue
  | badNumber
  | needlessValue
  | unknownCommand
  | missingCommand
  | nothingGiven
  | helpWanted
  | versionWanted
deriving DecidableEq, Repr

/-- Help and the version are given because they were asked for. -/
def Problem.isWish : Problem → Bool
  | helpWanted => true
  | versionWanted => true
  | _ => false

/-- The exit code where a command line is not followed. -/
def Problem.exitCode (problem : Problem) : Nat :=
  if problem.isWish then 0 else 2

/-- An argument. -/
inductive Key where
  | help
  | version
  | verbose
  | config
  | input
  | code
  | format
  | output
  | noArchive
  | paths
  | limit
  | force
deriving DecidableEq, Repr

/-- What an argument takes: it is a wish that is granted at once, a switch that is turned once, a
counter, one value, or any number of values. -/
inductive Kind where
  | wish (problem : Problem)
  | switch
  | counter
  | single
  | several
deriving DecidableEq, Repr

namespace Key

def kind : Key → Kind
  | help => .wish .helpWanted
  | version => .wish .versionWanted
  | verbose => .counter
  | noArchive => .switch
  | force => .switch
  | paths => .several
  | _ => .single

def takesValue (key : Key) : Bool :=
  key.kind == .single || key.kind == .several

def long? : Key → Option String
  | help => some "help"
  | version => some "version"
  | verbose => some "verbose"
  | config => some "config"
  | code => some "code"
  | format => some "format"
  | output => some "output"
  | noArchive => some "no-archive"
  | limit => some "limit"
  | force => some "force"
  | input => none
  | paths => none

def short? : Key → Option Char
  | help => some 'h'
  | version => some 'V'
  | verbose => some 'v'
  | format => some 'f'
  | output => some 'o'
  | limit => some 'n'
  | _ => none

end Key

/-- A number of at most 64 bits. A plus sign may stand before it. -/
def number? (text : String) : Option Nat :=
  let digits := match text.toList with
    | '+' :: rest => rest
    | rest => rest
  if digits.isEmpty || !digits.all isDigit then none
  else
    let value := numberOf 10 digits
    if value < Nat.pow 2 64 then some value else none

/-- What is wrong with a value of an argument. Paths are not empty. -/
def Key.problem? (key : Key) (value : String) : Option Problem :=
  match key with
  | .format => if (Format.ofName? value).isSome then none else some .badValue
  | .limit => if (number? value).isSome then none else some .badNumber
  | .code => none
  | _ => if value.isEmpty then some .badValue else none

/-- The arguments that a command line, or the part of it behind a command, may hold: those with
names, the one without, and whether a command may follow. -/
structure Grammar where
  named : List Key
  unnamed : Option Key
  verbs : Bool
deriving Repr

def Grammar.root : Grammar :=
  ⟨[.help, .version, .verbose, .config], none, true⟩

def Grammar.of : Verb → Grammar
  | .analyze =>
    ⟨[.help, .verbose, .config, .code, .format, .output, .noArchive], some .input, false⟩
  | .batch => ⟨[.help, .verbose, .config, .format, .output], some .paths, false⟩
  | .history => ⟨[.help, .verbose, .config, .limit, .format, .output], none, false⟩
  | .init => ⟨[.help, .verbose, .config, .force], none, false⟩

end SnippetAudit.CommandLine
