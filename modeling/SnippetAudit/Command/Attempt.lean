import SnippetAudit.Command.Failure
import SnippetAudit.Store.Folders

/-!
Commands as they run: requests to a host that may end in a failure.
-/

namespace SnippetAudit

abbrev Attempt (m : Type → Type) (α : Type) : Type :=
  ExceptT Failure m α

namespace Attempt

variable {m : Type → Type} [Monad m] [Host m] {α : Type}

/-- Makes a request that may meet a fault, and fails for the cause given then. -/
def ask (request : m (Except Fault α)) (cause : Fault → Cause) : Attempt m α :=
  ExceptT.mk do
    match ← request with
    | .ok value => return .ok value
    | .error fault => return .error (.of (cause fault))

/-- Says what a part of a command is about, if that part fails. -/
def within (context : String) (part : Attempt m α) : Attempt m α :=
  ExceptT.mk do
    match ← part.run with
    | .ok value => return .ok value
    | .error failure => return .error (failure.about context)

def fail (cause : Cause) : Attempt m α :=
  ExceptT.mk (return .error (.of cause))

def note (level : Level) (text : String) : Attempt m Unit :=
  ExceptT.lift (Host.note (.plain level text))

def sure (request : m α) : Attempt m α :=
  ExceptT.lift request

end Attempt

end SnippetAudit
