import SnippetAudit.Store.Host

/-!
Folders made together with the folders above them.
-/

namespace SnippetAudit.Host

/-- Makes the first folder of a list, in which each folder lies in the next. Those further down the
list are made only if they are missing, and a folder that is already there is as good as one made.
-/
def makeFirst [Monad m] [Host m] : List Path → m (Except Fault Unit)
  | [] => return .error .missing
  | path :: above => do
    if path.text.isEmpty then return .ok ()
    let made ← makeFolder path
    match made with
    | .ok () => return .ok ()
    | .error .missing =>
      match ← makeFirst above with
      | .error fault => return .error fault
      | .ok () =>
        match ← makeFolder path with
        | .ok () => return .ok ()
        | .error fault => return if ← leadsToFolder path then .ok () else .error fault
    | .error fault => return if ← leadsToFolder path then .ok () else .error fault

/-- Makes a folder and all that are missing above it. -/
def makeFolders [Monad m] [Host m] (path : Path) : m (Except Fault Unit) :=
  makeFirst (path.ancestors (path.components.length + 1))

/-- The folder that a file lies in, unless its path does not name one. -/
def folderOf? (path : Path) : Option Path :=
  path.parent?.filter (!·.text.isEmpty)

def readText [Monad m] [Host m] (path : Path) : m (Except Fault String) := do
  match ← read path with
  | .error fault => return .error fault
  | .ok bytes =>
    match String.fromUTF8? bytes with
    | some text => return .ok text
    | none => return .error .noText

end SnippetAudit.Host
