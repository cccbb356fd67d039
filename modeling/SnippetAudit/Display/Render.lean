import SnippetAudit.Display.Markdown
import SnippetAudit.Display.Terminal

/-!
The text of what is shown, in any of the formats.
-/

namespace SnippetAudit

/-- The text of an exhibit. Colours matter to the terminal only. -/
def Exhibit.render (format : Format) (colors : Bool) (exhibit : Exhibit) : String :=
  match format with
  | .json => exhibit.json
  | .markdown => ended (Markdown.lines exhibit)
  | .terminal => ended (Terminal.lines colors exhibit)

end SnippetAudit
