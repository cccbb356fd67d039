import SnippetAudit.Archive.File
import SnippetAudit.Command.Output

/-!
The command that analyses one snippet, shows the report and archives it. Nothing is written before
there is a report, and the report does not depend on whether it can be archived.
-/

namespace SnippetAudit

variable {m : Type → Type} [Monad m] [Host m]

/-- The notice that tells of the result of an analysis. -/
def Report.notice (bytes : Nat) (report : Report) : Notice :=
  ⟨.debug, some bytes, "analysis complete score=" ++ toString report.score ++ " status=" ++
    report.status.name ++ " issues=" ++ toString report.issues.length⟩

/-- The notice that tells why an analysis broke off. -/
def Breakdown.notice (bytes : Nat) (reason : String) : Notice :=
  ⟨.error, some bytes, "analysis stage panicked message=" ++ reason⟩

/-- Analyses a snippet, and gives a notice for every event on the way and for how it ends. -/
def analyzeAloud (settings : Settings) (listener : Listener) (code : String) :
    m (Except Refusal Report) := do
  let bytes := code.utf8ByteSize
  let pass (event : Event) := Host.note ⟨.debug, some bytes, event.text⟩
  let result ← examine settings listener pass code
  match result with
  | .ok report => Host.note (report.notice bytes)
  | .error (.failed reason) => Host.note (Breakdown.notice bytes reason)
  | .error _ => pure ()
  return result

/-- The failure of a command for a snippet that was refused. What is not the fault of the caller is
said to be internal. -/
def Refusal.failure (refusal : Refusal) : Failure :=
  match refusal with
  | .failed _ => (Failure.of (.refused refusal)).about "Internal error during code analysis"
  | _ => .of (.refused refusal)

/-- What is analysed, and what is done with the report. -/
structure AnalyzeRequest where
  input : Option Path
  code : Option String
  target : Target
  archived : Bool
deriving Inhabited

/-- The snippet of a request. One that is given in the request itself goes before a file. -/
def AnalyzeRequest.snippet (request : AnalyzeRequest) : Attempt m String :=
  match request.code, request.input with
  | some code, _ => pure code
  | none, some path => readSnippet path
  | none, none => Attempt.fail (.refused .empty)

/-- Analyses a snippet with a listener, shows the report and archives it. -/
def AnalyzeRequest.runWith (listener : Listener) (settings : Settings) (request : AnalyzeRequest) :
    Attempt m Report := do
  let code ← request.snippet
  match ← Attempt.sure (analyzeAloud settings listener code) with
  | .error refusal => throw refusal.failure
  | .ok report =>
    request.target.show "report" (.report report)
    if settings.archive.enabled && request.archived then
      Attempt.sure (ArchiveFile.tryStore ⟨settings.archive.path⟩ code report)
    return report

/-- Analyses a snippet, shows the report and archives it. -/
def AnalyzeRequest.run (settings : Settings) (request : AnalyzeRequest) : Attempt m Report :=
  request.runWith .quiet settings

end SnippetAudit
