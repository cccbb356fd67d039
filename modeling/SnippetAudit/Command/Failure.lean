import SnippetAudit.Analysis
import SnippetAudit.Store.Fault

/-!
Failures of commands: a cause, and what the command was about when it came up.
-/

namespace SnippetAudit

/-- What an archive was about to do when it failed. -/
inductive ArchiveStep where
  | makeFolder
  | openFile
  | append
  | read
deriving DecidableEq, Repr

def ArchiveStep.message : ArchiveStep → String
  | makeFolder => "cannot create archive directory"
  | openFile => "cannot open archive"
  | append => "cannot append to archive"
  | read => "cannot read archive"

/-- Why a command fails. -/
inductive Cause where
  | refused (refusal : Refusal)
  | malformedSettings
  | invalidSettings (problem : Settings.Problem)
  | unreadableSettings (fault : Fault)
  | archive (step : ArchiveStep) (fault : Fault)
  | system (fault : Fault)
  | settingsExist

namespace Cause

/-- A cause in words, without what lies behind it. -/
def message : Cause → String
  | refused refusal => refusal.message
  | malformedSettings => "TOML parse error"
  | invalidSettings problem => "Configuration error: " ++ problem.message
  | unreadableSettings fault => fault.message
  | archive step _ => "Archive error: " ++ step.message
  | system fault => fault.message
  | settingsExist => "Configuration file already exists. Use --force to overwrite."

def fullMessage (cause : Cause) : String :=
  match cause with
  | archive _ fault => cause.message ++ ": " ++ fault.message
  | _ => cause.message

/-- The caller gave something that cannot be analysed. -/
def isCallers : Cause → Bool
  | refused refusal => refusal.isCallers
  | _ => false

end Cause

/-- A failure of a command: its cause, and what the command was about, the outermost first. -/
structure Failure where
  contexts : List String
  cause : Cause

namespace Failure

def message (failure : Failure) : String :=
  ": ".intercalate (failure.contexts ++ [failure.cause.fullMessage])

/-- The exit code of a failed command: two if the caller gave something that cannot be analysed, and
else one. -/
def exitCode (failure : Failure) : Nat :=
  if failure.cause.isCallers then 2 else 1

def of (cause : Cause) : Failure :=
  ⟨[], cause⟩

/-- A failure that came up while the command was about something. -/
def about (context : String) (failure : Failure) : Failure :=
  { failure with contexts := context :: failure.contexts }

end Failure

end SnippetAudit
