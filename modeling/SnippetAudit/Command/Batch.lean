import SnippetAudit.Command.Analyze

/-!
The command that analyses many files. Folders stand for all files anywhere below them; every file is
analysed by itself, in the order of the paths, and one that cannot be analysed does not keep the
others from it.
-/

namespace SnippetAudit

variable {m : Type → Type} [Monad m] [Host m]

/-- What a path stands for: the files below it if it is a folder, and else itself. -/
def expandPath (path : Path) : m (List Path) := do
  if ← Host.leadsToFolder path then Host.pathsBelow path else return [path]

/-- The files that paths stand for, in the order of the paths and each once. Of the spellings of one
path the first given is kept. -/
def collectFiles (paths : List Path) : m (List Path) := do
  let found ← paths.mapM expandPath
  return (found.flatten.mergeSort Path.le).eraseRepsBy Path.same

def analyzeFile (settings : Settings) (path : Path) : m BatchEntry := do
  match ← Host.readText path with
  | .error fault => return ⟨path, .rejected (some ("cannot read file: " ++ fault.message))⟩
  | .ok code =>
    match ← analyzeAloud settings .quiet code with
    | .ok report => return ⟨path, .analyzed report⟩
    | .error refusal =>
      Host.note (.plain .debug ("Rejected " ++ path.text ++ ": " ++ refusal.message))
      return ⟨path, .rejected (some refusal.message)⟩

/-- Which files are analysed, and where the result is shown. -/
structure BatchRequest where
  paths : List Path
  target : Target
deriving Inhabited

/-- Analyses files and shows what became of each. -/
def BatchRequest.run (settings : Settings) (request : BatchRequest) :
    Attempt m (List BatchEntry) := do
  let files ← Attempt.sure (collectFiles request.paths)
  Attempt.note .info ("Analyzing " ++ toString files.length ++ " files")
  let entries ← Attempt.sure (files.mapM (analyzeFile settings))
  request.target.show "batch" (.batch entries)
  return entries

end SnippetAudit
