import SnippetAudit.Data.Basic
import SnippetAudit.Decimal.Layout

/-!
JSON text written from data: on one line without blanks, or spread over lines with two blanks of
indentation for each level.
-/

namespace SnippetAudit.Json

def hexDigit (n : Nat) : Char :=
  if n < 10 then Char.ofNat (48 + n) else Char.ofNat (87 + n)

/-- A character as it is written in quotes. Quotes, backslashes and control characters are escaped,
and nothing else is. -/
def escape (c : Char) : List Char :=
  if c = '"' then ['\\', '"']
  else if c = '\\' then ['\\', '\\']
  else if c = '\n' then ['\\', 'n']
  else if c = '\r' then ['\\', 'r']
  else if c = '\t' then ['\\', 't']
  else if c.toNat = 8 then ['\\', 'b']
  else if c.toNat = 12 then ['\\', 'f']
  else if c.toNat < 32 then ['\\', 'u', '0', '0', hexDigit (c.toNat / 16), hexDigit (c.toNat % 16)]
  else [c]

def quote (text : String) : String :=
  String.ofList ('"' :: (text.toList.flatMap escape ++ ['"']))

/-- How JSON text is laid out. -/
inductive Style where
  | compact
  | spread
deriving DecidableEq, Repr

namespace Style

def lineBreak : Style → Nat → String
  | compact, _ => ""
  | spread, depth => "\n" ++ String.ofList (List.replicate (2 * depth) ' ')

def colon : Style → String
  | compact => ":"
  | spread => ": "

end Style

mutual

/-- Writes a value at a depth behind what is already written. -/
def write (style : Style) (depth : Nat) (out : String) : Data → String
  | .null => out ++ "null"
  | .bool true => out ++ "true"
  | .bool false => out ++ "false"
  | .whole value => out ++ toString value
  | .decimal value => out ++ Decimal.Layout.json.text value
  | .text value => out ++ quote value
  | .list [] => out ++ "[]"
  | .list (first :: rest) =>
    writeItems style (depth + 1)
      (write style (depth + 1) (out ++ "[" ++ style.lineBreak (depth + 1)) first) rest ++
      style.lineBreak depth ++ "]"
  | .table [] => out ++ "\x7b\x7d"
  | .table ((name, value) :: rest) =>
    writeMembers style (depth + 1)
      (write style (depth + 1)
        (out ++ "\x7b" ++ style.lineBreak (depth + 1) ++ quote name ++ style.colon) value) rest ++
      style.lineBreak depth ++ "\x7d"

/-- Writes the items of a list that are not the first. -/
def writeItems (style : Style) (depth : Nat) (out : String) : List Data → String
  | [] => out
  | item :: rest =>
    writeItems style depth (write style depth (out ++ "," ++ style.lineBreak depth) item) rest

/-- Writes the members of a table that are not the first. -/
def writeMembers (style : Style) (depth : Nat) (out : String) : List (String × Data) → String
  | [] => out
  | (name, value) :: rest =>
    writeMembers style depth
      (write style depth (out ++ "," ++ style.lineBreak depth ++ quote name ++ style.colon) value)
      rest

end

def print (style : Style) (value : Data) : String :=
  write style 0 "" value

end SnippetAudit.Json
