import SnippetAudit.Archive.File
import SnippetAudit.Command.Output

/-!
The command that shows archived reports.
-/

namespace SnippetAudit

variable {m : Type → Type} [Monad m] [Host m]

/-- Which archive is shown, how many of its last reports, and where. -/
structure HistoryRequest where
  archive : Path
  limit : Option Nat
  target : Target
deriving Inhabited

/-- Shows the last reports of an archive, the oldest of them first. -/
def HistoryRequest.run (request : HistoryRequest) : Attempt m (List ArchiveEntry) := do
  let all ← Attempt.within ("Failed to load " ++ request.archive.text)
    (ArchiveFile.list request.archive)
  let entries := ArchiveEntry.mostRecent request.limit all
  request.target.show "history" (.history entries)
  return entries

end SnippetAudit
