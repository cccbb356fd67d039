import SnippetAudit.Command.Attempt
import SnippetAudit.Display.Render

/-!
Where commands read snippets and write what they show.
-/

namespace SnippetAudit

variable {m : Type → Type} [Monad m] [Host m]

def inputPath : Path := ⟨"-"⟩

/-- The snippet in a file, or in the standard input. -/
def readSnippet (path : Path) : Attempt m String :=
  if path = inputPath then
    Attempt.within "Failed to read snippet from stdin" do
      match String.fromUTF8? (← Attempt.sure Host.input) with
      | some text => return text
      | none => Attempt.fail (.system .noText)
  else Attempt.within ("Failed to read " ++ path.text) (Attempt.ask (Host.readText path) .system)

/-- Where a command shows its result, and how. -/
structure Target where
  format : Format
  path : Option Path
  colors : Bool
deriving Repr, Inhabited

/-- Makes an empty file, and the folders above it. -/
def createFile (path : Path) : Attempt m Unit := do
  if let some folder := Host.folderOf? path then
    Attempt.within ("Failed to create " ++ folder.text)
      (Attempt.ask (Host.makeFolders folder) .system)
  Attempt.within ("Failed to create " ++ path.text) (Attempt.ask (Host.create path) .system)

/-- Shows something: in a file that is made for it, or on the standard output. Colours, where they
are wanted, go into the file too. -/
def Target.show (target : Target) (what : String) (exhibit : Exhibit) : Attempt m Unit := do
  let text := exhibit.render target.format target.colors
  match target.path with
  | none => Attempt.sure (Host.print text)
  | some path =>
    createFile path
    Attempt.within ("Failed to flush " ++ what ++ " output")
      (Attempt.ask (Host.append path text.toUTF8) .system)

end SnippetAudit
