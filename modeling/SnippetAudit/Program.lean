import SnippetAudit.Command.Batch
import SnippetAudit.Command.History
import SnippetAudit.Command.Init
import SnippetAudit.CommandLine.Help
import SnippetAudit.CommandLine.Parse

/-!
The whole program: a command line, what the environment says, and the command that is run.
-/

namespace SnippetAudit

open CommandLine

variable {m : Type → Type} [Monad m] [Host m]

def CommandLine.Invocation.run (colors : Bool) (invocation : Invocation) : Attempt m Unit := do
  match invocation.order with
  | .analyze input code format output noArchive =>
    let settings ← Settings.resolve invocation.config
    discard <| AnalyzeRequest.run settings
      { input, code, target := ⟨format, output, colors⟩, archived := !noArchive }
  | .batch paths format output =>
    let settings ← Settings.resolve invocation.config
    discard <| BatchRequest.run settings { paths, target := ⟨format, output, colors⟩ }
  | .history limit format output =>
    let settings ← Settings.resolve invocation.config
    discard <| HistoryRequest.run
      { archive := ⟨settings.archive.path⟩, limit, target := ⟨format, output, colors⟩ }
  | .init force => writeDefaults ⟨"."⟩ force

/-- What the environment says: which file holds the settings, which notices are shown, and whether
colours are forced on. -/
structure Environment where
  config : Option String
  log : Option String
  colors : Bool
deriving Inhabited

def versionText : String :=
  "codesense 0.1.0\n"

/-- How a run of the program ends. -/
inductive Ending where
  | done
  | failed (failure : Failure)
  | unclear (problem : Problem)

def Ending.exitCode : Ending → Nat
  | done => 0
  | failed failure => failure.exitCode
  | unclear problem => problem.exitCode

/-- The notices that a run shows. What the environment says goes before the command line. -/
def filterOf (environment : Environment) (verbosity : Nat) : NoticeFilter :=
  match environment.log with
  | some text => .ofText text
  | none => .upTo (.ofVerbosity verbosity)

def runProgram (environment : Environment) (words : List String) : m Ending := do
  match parse environment.config words with
  | .error problem =>
    if problem = .versionWanted then Host.print versionText
    if problem = .helpWanted then Host.print helpText
    return .unclear problem
  | .ok invocation =>
    Host.listen (filterOf environment invocation.verbosity)
    match ← (invocation.run environment.colors).run with
    | .ok () => return .done
    | .error failure => return .failed failure

end SnippetAudit
