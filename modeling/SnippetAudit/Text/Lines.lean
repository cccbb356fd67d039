import SnippetAudit.Text.Blank

/-!
Texts cut into pieces. A separator always cuts, so a text with `n` separators has `n + 1` pieces,
and joining the pieces again gives the text.
-/

namespace SnippetAudit.Text

/-- The pieces of a text between the occurrences of a separator; the empty text is one empty piece.
-/
def pieces (separator : Char) (text : List Char) : List (List Char) :=
  text.foldr (fun c found =>
    if c = separator then [] :: found
    else match found with
      | [] => [[c]]
      | piece :: rest => (c :: piece) :: rest) [[]]

/-- The lines of a text: its pieces between newlines. A final newline is followed by an empty line.
-/
def lines (text : List Char) : List (List Char) :=
  pieces '\n' text

/-- The pieces with a separator between each two of them. -/
def join (separator : List Char) (found : List (List Char)) : List Char :=
  (found.intersperse separator).flatten

/-- A line without the carriage return it ends with. -/
def dropReturn (line : List Char) : List Char :=
  if line.getLast? = some '\r' then line.dropLast else line

/-- The lines of a text that a newline ends, each without a carriage return before that newline,
and what is left after the last newline if it is not empty. -/
def endedLines (text : List Char) : List (List Char) :=
  let all := lines text
  all.dropLast.map dropReturn ++ (all.getLast?.filter (fun line => !line.isEmpty)).toList

def startsWith (text start : List Char) : Bool :=
  start.isPrefixOf text

/-- The text that follows a given start, if the text begins with it. -/
def after? : List Char → List Char → Option (List Char)
  | [], text => some text
  | _ :: _, [] => none
  | c :: start, d :: text => if c = d then after? start text else none

def contains : List Char → List Char → Bool
  | [], needle => needle.isEmpty
  | c :: text, needle => startsWith (c :: text) needle || contains text needle

end SnippetAudit.Text
