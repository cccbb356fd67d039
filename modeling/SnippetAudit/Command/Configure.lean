import SnippetAudit.Command.Attempt
import SnippetAudit.Settings.Text

/-!
Where settings come from: a file that is named, which must then hold settings; or else the nearest
file of the usual name in the current folder and the folders above it, where anything wrong makes
the defaults apply.
-/

namespace SnippetAudit.Settings

variable {m : Type → Type} [Monad m] [Host m]

def fileName : Path := ⟨".codesense.toml"⟩

/-- How many folders are searched for a file with settings. -/
def searchDepth : Nat := 10

def load (path : Path) : Attempt m Settings := do
  let text ← Attempt.ask (Host.readText path) .unreadableSettings
  match Settings.ofText text with
  | .error .malformed => Attempt.fail .malformedSettings
  | .error (.invalid problem) => Attempt.fail (.invalidSettings problem)
  | .ok settings =>
    Attempt.note .debug ("Loaded config from " ++ path.text)
    return settings

/-- A defect in words, for settings that were found and not named. -/
def Defect.message : Defect → String
  | malformed => "Failed to parse " ++ fileName.text ++ ": TOML parse error"
  | invalid problem => problem.message

/-- The settings of a file that was found, if it can be read. A missing file is passed over without
a word. -/
def tryFile (path : Path) : m (Option Settings) := do
  match ← Host.readText path with
  | .error fault =>
    if fault ≠ .missing then
      Host.note (.plain .warn ("Failed to read config file " ++ path.text ++ ": " ++ fault.message))
    return none
  | .ok text =>
    match Settings.ofText text with
    | .ok settings =>
      Host.note (.plain .debug ("Loaded config from " ++ path.text))
      return some settings
    | .error defect =>
      Host.note (.plain .warn (defect.message ++ ". Using defaults."))
      return some {}

/-- The settings of the first file of a list that can be read, and else the defaults. -/
def tryFiles : List Path → m Settings
  | [] => do
    Host.note (.plain .debug ("No config found after checking " ++ toString searchDepth ++
      " directories. Using default config."))
    return {}
  | path :: rest => do
    match ← tryFile path with
    | some settings => return settings
    | none => tryFiles rest

/-- The settings that apply where none are named. -/
def discover : m Settings := do
  match ← Host.folder with
  | .error fault =>
    Host.note (.plain .warn
      ("Failed to get current directory: " ++ fault.message ++ ". Using default config."))
    return {}
  | .ok folder => tryFiles ((folder.ancestors searchDepth).map (·.join fileName))

/-- The settings for a command: those of the file that is named, or those that are found. -/
def resolve (named : Option Path) : Attempt m Settings :=
  match named with
  | some path => Attempt.within ("Failed to load config " ++ path.text) (load path)
  | none => Attempt.sure discover

end SnippetAudit.Settings
