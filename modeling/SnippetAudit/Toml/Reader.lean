import SnippetAudit.Toml.Document
import SnippetAudit.Toml.Scalar

/-!
Documents of tables read from text, line by line: headers, and keys with their values. Nothing is
read of a text that breaks a rule anywhere.
-/

namespace SnippetAudit.Toml

open Text

def isGap (c : Char) : Bool :=
  c = ' ' || c = '\t'

/-- A text without the blanks of a line that it starts with. -/
def skipGap (text : List Char) : List Char :=
  text.dropWhile isGap

/-- Characters that quoted texts and comments may hold: all but the control characters, of which
the tab alone is allowed. -/
def isPrintable (c : Char) : Bool :=
  c = '\t' || (32 ≤ c.toNat && c.toNat ≠ 127)

/-- What is behind the newline that a text starts with. A carriage return may stand before it. -/
def newline? : List Char → Option (List Char)
  | '\n' :: rest => some rest
  | '\r' :: '\n' :: rest => some rest
  | _ => none

/-- What is behind the comment that a text starts with, if it does. -/
def skipComment : List Char → List Char
  | '#' :: rest => rest.dropWhile isPrintable
  | rest => rest

/-- What is left of a text behind the end of a line, with the comment before it. The end of the
text ends a line too. -/
def lineEnd? (text : List Char) : Option (List Char) :=
  match skipComment (skipGap text) with
  | [] => some []
  | rest => newline? rest

/-- A text without the blanks, comments and newlines that it starts with; `comment` says that it
starts within a comment. -/
def skipLines (comment : Bool) : List Char → List Char
  | [] => []
  | '\r' :: '\n' :: rest => skipLines false rest
  | c :: rest =>
    if c = '\n' then skipLines false rest
    else if comment then if isPrintable c then skipLines true rest else c :: rest
    else if isGap c then skipLines false rest
    else if c = '#' then skipLines true rest
    else c :: rest

/-- The character with a code of so many digits of base sixteen, and the text behind the code. -/
def code? (count : Nat) (text : List Char) : Option (Char × List Char) :=
  let digits := text.take count
  if digits.length = count ∧ digits.all (isDigitOf 16) then
    let code := numberOf 16 digits
    if code < 0xD800 ∨ (0xE000 ≤ code ∧ code < 0x110000) then
      some (Char.ofNat code, text.drop count)
    else none
  else none

/-- The character that an escape stands for, from behind its backslash, and the text behind it. -/
def escape? : List Char → Option (Char × List Char)
  | 'b' :: rest => some (Char.ofNat 8, rest)
  | 't' :: rest => some ('\t', rest)
  | 'n' :: rest => some ('\n', rest)
  | 'f' :: rest => some (Char.ofNat 12, rest)
  | 'r' :: rest => some ('\r', rest)
  | 'e' :: rest => some (Char.ofNat 27, rest)
  | '"' :: rest => some ('"', rest)
  | '\\' :: rest => some ('\\', rest)
  | 'x' :: rest => code? 2 rest
  | 'u' :: rest => code? 4 rest
  | 'U' :: rest => code? 8 rest
  | _ => none

/-- A text without the blanks and newlines that it starts with. -/
def skipSpace : List Char → List Char
  | '\r' :: '\n' :: rest => skipSpace rest
  | c :: rest => if isGap c || c = '\n' then skipSpace rest else c :: rest
  | [] => []

/-- What is behind the newline that a backslash takes away, and behind all blanks and newlines
after it. -/
def joined? (text : List Char) : Option (List Char) :=
  (newline? (skipGap text)).map skipSpace

/-- The kinds of quoted texts: with escapes or without, on one line or on several. -/
structure Quoting where
  mark : Char
  escapes : Bool
  several : Bool

/-- The rest of a quoted text and what is behind its closing marks. `found` holds the characters
read, the last first. A text on several lines ends at three marks, and up to two more before them
belong to it. -/
def readQuoted (quoting : Quoting) : Nat → List Char → List Char → Option (String × List Char)
  | 0, _, _ => none
  | fuel + 1, found, text =>
    match text with
    | [] => none
    | c :: rest =>
      if c = quoting.mark then
        if quoting.several then
          let marks := (text.takeWhile (· = quoting.mark)).length
          if 5 < marks then none
          else if 3 ≤ marks then
            some (String.ofList (List.replicate (marks - 3) c ++ found).reverse, text.drop marks)
          else readQuoted quoting fuel (c :: found) rest
        else some (String.ofList found.reverse, rest)
      else if c = '\\' ∧ quoting.escapes then
        match (if quoting.several then joined? rest else none) with
        | some rest => readQuoted quoting fuel found rest
        | none =>
          match escape? rest with
          | some (plain, rest) => readQuoted quoting fuel (plain :: found) rest
          | none => none
      else if quoting.several ∧ (newline? text).isSome then
        readQuoted quoting fuel (c :: found) rest
      else if quoting.several ∧ c = '\n' then readQuoted quoting fuel (c :: found) rest
      else if isPrintable c then readQuoted quoting fuel (c :: found) rest
      else none

def lineText? (fuel : Nat) (mark : Char) (rest : List Char) : Option (String × List Char) :=
  readQuoted ⟨mark, mark = '"', false⟩ fuel [] rest

/-- A quoted text on several lines. A newline right behind the opening marks is no part of it. -/
def blockText? (fuel : Nat) (mark : Char) (rest : List Char) : Option (String × List Char) :=
  readQuoted ⟨mark, mark = '"', true⟩ fuel [] ((newline? rest).getD rest)

def isMark (c : Char) : Bool :=
  c = '"' || c.toNat = 0x27

/-- A quoted text of either extent, from its first mark on. -/
def quoted? (fuel : Nat) (mark : Char) (rest : List Char) : Option (String × List Char) :=
  match rest with
  | a :: b :: later =>
    if a = mark ∧ b = mark then blockText? fuel mark later else lineText? fuel mark rest
  | rest => lineText? fuel mark rest

def isKeyChar (c : Char) : Bool :=
  isDigit c || ('a' ≤ c && c ≤ 'z') || ('A' ≤ c && c ≤ 'Z') || c = '_' || c = '-'

def simpleKey? (fuel : Nat) : List Char → Option (String × List Char)
  | [] => none
  | c :: rest =>
    if isMark c then lineText? fuel c rest
    else
      let name := (c :: rest).takeWhile isKeyChar
      if name.isEmpty then none else some (String.ofList name, (c :: rest).drop name.length)

/-- A key with dots between its parts: the path to a table and the name in it, and the text behind
it and the blanks after it. `path` holds the parts before, the last first. -/
def readKey : Nat → List String → List Char → Option ((List String × String) × List Char)
  | 0, _, _ => none
  | fuel + 1, path, text =>
    match simpleKey? fuel (skipGap text) with
    | none => none
    | some (name, rest) =>
      match skipGap rest with
      | '.' :: rest => readKey fuel (name :: path) rest
      | rest => some ((path.reverse, name), rest)

/-- The characters that a value without quotes ends before. -/
def endsScalar (c : Char) : Bool :=
  isGap c || [',', ']', '}', '#', '\n', '\r'].contains c

/-- A value without quotes and the text behind it. A date and a time may have a blank between
them. -/
def readScalar (text : List Char) : Option (Data × List Char) :=
  let first := text.takeWhile (!endsScalar ·)
  let rest := text.drop first.length
  let length := match rest with
    | ' ' :: c :: later =>
      if isDigit c ∧ (date? first).any (·.isEmpty) then
        first.length + 1 + ((c :: later).takeWhile (!endsScalar ·)).length
      else first.length
    | _ => first.length
  (scalar? (text.take length)).map fun data => (data, text.drop length)

/-- How deep lists and tables may be nested in a value. -/
def maxDepth : Nat := 80

mutual

/-- A value at the start of a text, and the text behind it. `depth` is how deep it may still be
nested. -/
def readValue : Nat → Nat → List Char → Option (Data × List Char)
  | 0, _, _ => none
  | fuel + 1, depth, text =>
    match text with
    | [] => none
    | c :: rest =>
      if isMark c then (quoted? fuel c rest).map fun (value, rest) => (.text value, rest)
      else if c = '[' then if depth = 0 then none else readItems fuel (depth - 1) [] rest
      else if c = '{' then if depth = 0 then none else readPairs fuel (depth - 1) [] rest
      else readScalar text

/-- The items of a list from the next one on; `found` holds those read, the last first. A comma may
follow the last one. -/
def readItems : Nat → Nat → List Data → List Char → Option (Data × List Char)
  | 0, _, _, _ => none
  | fuel + 1, depth, found, text =>
    match skipLines false text with
    | ']' :: rest => some (.list found.reverse, rest)
    | text =>
      match readValue fuel depth text with
      | none => none
      | some (item, rest) =>
        match skipLines false rest with
        | ',' :: rest => readItems fuel depth (item :: found) rest
        | ']' :: rest => some (.list (item :: found).reverse, rest)
        | _ => none

/-- The members of a table in braces from the next one on. A comma may follow the last one. -/
def readPairs : Nat → Nat → Members → List Char → Option (Data × List Char)
  | 0, _, _, _ => none
  | fuel + 1, depth, members, text =>
    match skipLines false text with
    | '}' :: rest => some (.table (membersToData members), rest)
    | text =>
      match readPair fuel depth text with
      | none => none
      | some ((path, name), value, rest) =>
        match Members.change .key (Members.define name value) path members with
        | none => none
        | some members =>
          match skipLines false rest with
          | ',' :: rest => readPairs fuel depth members rest
          | '}' :: rest => some (.table (membersToData members), rest)
          | _ => none

/-- A key with its value, and the text behind them. -/
def readPair : Nat → Nat → List Char → Option ((List String × String) × Data × List Char)
  | 0, _, _ => none
  | fuel + 1, depth, text =>
    match readKey fuel [] text with
    | some (key, '=' :: rest) =>
      (readValue fuel depth (skipGap rest)).map fun (value, rest) => (key, value, rest)
    | _ => none

end

/-- A header and the text behind its line: `true` for one more table of a list. -/
def header? (fuel : Nat) : List Char → Option ((Bool × List String × String) × List Char)
  | '[' :: '[' :: rest => do
    let ((path, name), rest) ← readKey fuel [] rest
    match rest with
    | ']' :: ']' :: rest => (lineEnd? rest).map fun rest => ((true, path, name), rest)
    | _ => none
  | '[' :: rest => do
    let ((path, name), rest) ← readKey fuel [] rest
    match rest with
    | ']' :: rest => (lineEnd? rest).map fun rest => ((false, path, name), rest)
    | _ => none
  | _ => none

/-- The document with the lines of a text added. Every step takes a line, and `size` steps are
enough for any part of one. -/
def readLines (size : Nat) : Nat → Document → List Char → Option Document
  | 0, _, _ => none
  | fuel + 1, document, text =>
    match skipLines false text with
    | [] => some document
    | '[' :: rest => do
      let ((more, path, name), rest) ← header? size ('[' :: rest)
      let document ← if more then document.openNext path name else document.openTable path name
      readLines size fuel document rest
    | text => do
      let ((path, name), value, rest) ← readPair size maxDepth text
      let document ← document.define path name value
      let rest ← lineEnd? rest
      readLines size fuel document rest

/-- The data of a text. A byte order mark may stand before it. -/
def read (text : String) : Option Data :=
  let chars := match text.toList with
    | c :: rest => if c.toNat = 0xFEFF then rest else c :: rest
    | [] => []
  let size := 2 * chars.length + 3
  (readLines size size .empty chars).map Document.toData

end SnippetAudit.Toml
