import SnippetAudit.Data.Basic
import SnippetAudit.Decimal.Layout
import SnippetAudit.Json.Printer

/-!
Documents of tables written as text: one section for each table, with an empty line between two.
-/

namespace SnippetAudit.Toml

/-- Decimal numbers in a document: always positional, with a fraction. -/
def layout : Decimal.Layout :=
  ⟨none, true, "nan", "inf"⟩

/-- A single value as text. Quoted texts are written as in JSON. -/
def scalarText : Data → String
  | .bool value => if value then "true" else "false"
  | .whole value => toString value
  | .decimal value => layout.text value
  | .text value => Json.quote value
  | _ => "\x7b\x7d"

def memberLine (member : String × Data) : String :=
  member.1 ++ " = " ++ scalarText member.2 ++ "\n"

def block (name : String) : Data → String
  | .table members => "[" ++ name ++ "]\n" ++ String.join (members.map memberLine)
  | value => memberLine (name, value)

def print : Data → String
  | .table sections => "\n".intercalate (sections.map fun (name, value) => block name value)
  | value => scalarText value

end SnippetAudit.Toml
