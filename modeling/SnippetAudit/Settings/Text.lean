import SnippetAudit.Settings.Record
import SnippetAudit.Toml.Reader

/-!
Settings read from text. Fields that settings do not have are passed over, but the whole text must
be well formed and the settings valid.
-/

namespace SnippetAudit.Settings

/-- Why a text holds no settings. -/
inductive Defect where
  | malformed
  | invalid (problem : Problem)

/-- The settings that a text holds, valid or not. -/
def ofToml? (text : String) : Option Settings :=
  Toml.read text >>= ofData? .ignored

def ofText (text : String) : Except Defect Settings :=
  match ofToml? text with
  | none => .error .malformed
  | some settings =>
    match settings.problem? with
    | some problem => .error (.invalid problem)
    | none => .ok settings

end SnippetAudit.Settings
