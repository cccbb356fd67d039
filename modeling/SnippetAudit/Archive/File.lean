import SnippetAudit.Archive.Entry
import SnippetAudit.Command.Attempt
import SnippetAudit.Text.Lines

/-!
Archive files: entries line by line, the oldest first. Entries are only ever added at the end, and a
line of text that is no entry costs nothing but itself.
-/

namespace SnippetAudit.ArchiveFile

open Text

variable {m : Type → Type} [Monad m] [Host m]

def makeFolder (path : Path) : Attempt m Unit :=
  match Host.folderOf? path with
  | some folder => Attempt.ask (Host.makeFolders folder) (.archive .makeFolder)
  | none => pure ()

/-- Adds an entry for a report that has just been made. -/
def store (path : Path) (code : String) (report : Report) : Attempt m ArchiveEntry := do
  let entry := ArchiveEntry.make code report (← Attempt.sure Host.now)
  makeFolder path
  Attempt.ask (Host.touch path) (.archive .openFile)
  Attempt.ask (Host.append path (entry.line ++ "\n").toUTF8) (.archive .append)
  Attempt.note .debug ("Archived report " ++ entry.id ++ " to " ++ path.text)
  return entry

/-- Adds an entry if that can be done, and gives a notice either way. -/
def tryStore (path : Path) (code : String) (report : Report) : m Unit := do
  match ← (store path code report).run with
  | .ok entry => Host.note (.plain .info ("Archived report " ++ entry.id))
  | .error failure =>
    Host.note (.plain .warn ("Failed to archive report: " ++ failure.cause.message))

/-- The lines of a text that are not blank, each with its entry if it has one, and their numbers. -/
def read (text : String) : List (Nat × Option ArchiveEntry) :=
  ((endedLines text.toList).zipIdx.filter fun (line, _) => !isBlankLine line).map
    fun (line, index) => (index + 1, ArchiveEntry.ofLine? (String.ofList line))

def entriesOf (text : String) : List ArchiveEntry :=
  (read text).filterMap (·.2)

/-- Gives a notice for each line that is no entry. -/
def noteCorrupt (path : Path) (found : List (Nat × Option ArchiveEntry)) : m Unit :=
  (found.filter (·.2.isNone)).forM fun (line, _) =>
    Host.note
      (.plain .warn ("Skipping corrupt archive entry " ++ path.text ++ ":" ++ toString line))

/-- The entries of an archive. A file that is missing holds none. -/
def list (path : Path) : Attempt m (List ArchiveEntry) := do
  match ← Attempt.sure (Host.readText path) with
  | .error .missing => return []
  | .error fault => Attempt.fail (.archive .read fault)
  | .ok text =>
    let found := read text
    Attempt.sure (noteCorrupt path found)
    return found.filterMap (·.2)

end SnippetAudit.ArchiveFile
