import SnippetAudit.Json.Number

/-!
JSON text read as data. The whole text is one value, with blanks around it at most; anything else is
refused, and so is nesting of a hundred and twenty-eight levels or more.
-/

namespace SnippetAudit.Json

open Text

def isGap (c : Char) : Bool :=
  c = ' ' || c = '\n' || c = '\r' || c = '\t'

def skipGap (text : List Char) : List Char :=
  text.dropWhile isGap

def unit? (a b c d : Char) : Option Nat :=
  if [a, b, c, d].all (isDigitOf 16) then some (numberOf 16 [a, b, c, d]) else none

/-- The character that an escape of one letter stands for. -/
def escaped? (c : Char) : Option Char :=
  if c = '"' ∨ c = '\\' ∨ c = '/' then some c
  else if c = 'b' then some (Char.ofNat 8)
  else if c = 'f' then some (Char.ofNat 12)
  else if c = 'n' then some '\n'
  else if c = 'r' then some '\r'
  else if c = 't' then some '\t'
  else none

/-- The characters of a quoted text behind its opening quote, and the text behind its closing one.
`found` holds the characters read, the last first. A pair of surrogates is one character, and a
surrogate alone is refused. -/
def readQuoted (found : List Char) : List Char → Option (String × List Char)
  | [] => none
  | '"' :: rest => some (String.ofList found.reverse, rest)
  | '\\' :: 'u' :: a :: b :: c :: d :: rest =>
    match unit? a b c d with
    | none => none
    | some unit =>
      if 0xD800 ≤ unit ∧ unit < 0xDC00 then
        match rest with
        | '\\' :: 'u' :: e :: f :: g :: h :: rest' =>
          match unit? e f g h with
          | none => none
          | some low =>
            if 0xDC00 ≤ low ∧ low < 0xE000 then
              readQuoted
                (Char.ofNat (0x10000 + (unit - 0xD800) * 0x400 + (low - 0xDC00)) :: found) rest'
            else none
        | _ => none
      else if 0xDC00 ≤ unit ∧ unit < 0xE000 then none
      else readQuoted (Char.ofNat unit :: found) rest
  | '\\' :: c :: rest =>
    match escaped? c with
    | some plain => readQuoted (plain :: found) rest
    | none => none
  | c :: rest => if c.toNat < 32 ∨ c = '\\' then none else readQuoted (c :: found) rest

mutual

/-- A value at the start of a text, and the text behind it. -/
def readValue : Nat → Nat → List Char → Option (Data × List Char)
  | 0, _, _ => none
  | fuel + 1, depth, text =>
    match skipGap text with
    | 'n' :: 'u' :: 'l' :: 'l' :: rest => some (.null, rest)
    | 't' :: 'r' :: 'u' :: 'e' :: rest => some (.bool true, rest)
    | 'f' :: 'a' :: 'l' :: 's' :: 'e' :: rest => some (.bool false, rest)
    | '"' :: rest => (readQuoted [] rest).map fun (value, rest) => (.text value, rest)
    | '[' :: rest =>
      if depth ≤ 1 then none
      else match skipGap rest with
        | ']' :: rest => some (.list [], rest)
        | _ => readItems fuel (depth - 1) [] rest
    | '{' :: rest =>
      if depth ≤ 1 then none
      else match skipGap rest with
        | '}' :: rest => some (.table [], rest)
        | _ => readMembers fuel (depth - 1) [] rest
    | rest => number? rest

/-- The items of a list from the next one on; `found` holds those read, the last first. -/
def readItems : Nat → Nat → List Data → List Char → Option (Data × List Char)
  | 0, _, _, _ => none
  | fuel + 1, depth, found, text =>
    match readValue fuel depth text with
    | none => none
    | some (item, rest) =>
      match skipGap rest with
      | ',' :: rest => readItems fuel depth (item :: found) rest
      | ']' :: rest => some (.list (item :: found).reverse, rest)
      | _ => none

/-- The members of a table from the next one on; `found` holds those read, the last first. -/
def readMembers : Nat → Nat → List (String × Data) → List Char → Option (Data × List Char)
  | 0, _, _, _ => none
  | fuel + 1, depth, found, text =>
    match skipGap text with
    | '"' :: rest =>
      match readQuoted [] rest with
      | none => none
      | some (name, rest) =>
        match skipGap rest with
        | ':' :: rest =>
          match readValue fuel depth rest with
          | none => none
          | some (value, rest) =>
            match skipGap rest with
            | ',' :: rest => readMembers fuel depth ((name, value) :: found) rest
            | '}' :: rest => some (.table ((name, value) :: found).reverse, rest)
            | _ => none
        | _ => none
    | _ => none

end

/-- How deep lists and tables may be nested, and one more. -/
def maxDepth : Nat := 128

/-- The value that a JSON text stands for. Each step of the reader takes a character, so its fuel
does not run out. -/
def read (text : String) : Option Data :=
  let chars := text.toList
  match readValue (2 * chars.length + 2) maxDepth chars with
  | some (value, rest) => if (skipGap rest).isEmpty then some value else none
  | none => none

end SnippetAudit.Json
