import SnippetAudit.Command.Configure
import SnippetAudit.Toml.Printer

/-!
The command that writes a file with the default settings.
-/

namespace SnippetAudit

variable {m : Type → Type} [Monad m] [Host m]

/-- The text of a file with the default settings. -/
def Settings.defaultText : String :=
  "# codesense configuration\n\n" ++ Toml.print ({} : Settings).toData

/-- Writes the default settings into a folder. A file of the name that is there already is replaced
only by force. -/
def writeDefaults (folder : Path) (force : Bool) : Attempt m Unit := do
  let path := folder.join Settings.fileName
  if (← Attempt.sure (Host.leads path)) && !force then Attempt.fail .settingsExist
  Attempt.within ("Failed to write " ++ path.text) do
    Attempt.ask (Host.create path) .system
    Attempt.ask (Host.append path Settings.defaultText.toUTF8) .system
  Attempt.note .info ("Created " ++ path.text)

end SnippetAudit
