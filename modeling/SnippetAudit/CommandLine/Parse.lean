import SnippetAudit.Command.Analyze
import SnippetAudit.CommandLine.Scan

/-!
Command lines as requests. Verbosity and the file with settings may be given before the command or
behind it; what is given behind it counts, and the file may also be named by the environment.
-/

namespace SnippetAudit.CommandLine

/-- What a command is asked to do. -/
inductive Order where
  | analyze (input : Option Path) (code : Option String) (format : Format) (output : Option Path)
      (noArchive : Bool)
  | batch (paths : List Path) (format : Format) (output : Option Path)
  | history (limit : Option Nat) (format : Format) (output : Option Path)
  | init (force : Bool)
deriving Repr

/-- A whole command line. -/
structure Invocation where
  verbosity : Nat
  config : Option Path
  order : Order
deriving Repr

/-- The format that was asked for, or else the usual one. -/
def Findings.format (usual : Format) (found : Findings) : Format :=
  ((found.value? .format).bind Format.ofName?).getD usual

def Findings.path? (key : Key) (found : Findings) : Option Path :=
  (found.value? key).map Path.mk

/-- Arguments that exclude each other, and arguments that may not be missing. -/
def problemWith? (verb : Verb) (found : Findings) : Option Problem :=
  match verb with
  | .analyze =>
    if found.has .code && found.has .input then some .conflict
    else if !found.has .code && !found.has .input then some .missingArgument
    else none
  | .batch => if found.has .paths then none else some .missingArgument
  | _ => none

/-- What was found behind a command, as an order. -/
def Order.of (verb : Verb) (found : Findings) : Order :=
  match verb with
  | .analyze => .analyze (found.path? .input) (found.value? .code) (found.format .terminal)
      (found.path? .output) (found.has .noArchive)
  | .batch => .batch ((found.values .paths).map Path.mk) (found.format .json) (found.path? .output)
  | .history => .history ((found.value? .limit).bind number?) (found.format .terminal)
      (found.path? .output)
  | .init => .init (found.has .force)

/-- A file with settings that the environment names is given like any other, unless the words name
one. -/
def checkEnvironment (environment : Option String) (found : Findings) : Except Problem Unit :=
  match environment with
  | none => .ok ()
  | some value =>
    if found.has .config then .ok ()
    else match Key.problem? .config value with
      | some problem => .error problem
      | none => .ok ()

/-- The words behind the request for help name a command at most. -/
def helpProblem : List String → Problem
  | [] => .helpWanted
  | [word] =>
    if (Verb.ofName? word).isSome || word == helpWord then .helpWanted else .unknownCommand
  | _ => .unknownCommand

def readCommand (environment : Option String) (verb : Verb) (words : List String) :
    Except Problem Findings := do
  let (found, _) ← scan (.of verb) none false .none words
  let found ← found.close
  checkEnvironment environment found
  match problemWith? verb found with
  | some problem => throw problem
  | none => return found

/-- The request that the words of a command line stand for. `environment` is the file with settings
that the environment names. -/
def parse (environment : Option String) (words : List String) : Except Problem Invocation := do
  let (outer, rest?) ← scan .root none false .none words
  match rest? with
  | none =>
    let outer ← outer.close
    checkEnvironment environment outer
    if outer.given.isEmpty && environment.isNone then throw .nothingGiven else throw .missingCommand
  | some (word, rest) =>
    match Verb.ofName? word with
    | none => throw (helpProblem rest)
    | some verb =>
      let inner ← readCommand environment verb rest
      let outer ← outer.close
      checkEnvironment environment outer
      let config := ((inner.value? .config).or (outer.value? .config)).or environment
      return { verbosity := if inner.has .verbose then inner.count else outer.count
               config := config.map Path.mk
               order := .of verb inner }

end SnippetAudit.CommandLine
