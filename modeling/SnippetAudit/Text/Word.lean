import SnippetAudit.Text.Property

/-!
Word characters, letters with numbers, and letters without regard to case.
-/

namespace SnippetAudit.Text

def isPlainWord (c : Char) : Bool :=
  ('a' ≤ c && c ≤ 'z') || ('A' ≤ c && c ≤ 'Z') || ('0' ≤ c && c ≤ '9') || c == '_'

/-- Word characters: alphabetic characters, marks, decimal digits, connectors and joiners. -/
def isWord (c : Char) : Bool :=
  if c.toNat < 128 then isPlainWord c
  else Property.covers Property.alphabetic c.toNat || Property.covers Property.mark c.toNat ||
    Property.covers Property.decimalDigit c.toNat || Property.covers Property.connector c.toNat ||
    Property.covers Property.joiner c.toNat

/-- Alphabetic characters and characters of any number category. -/
def isAlphanumeric (c : Char) : Bool :=
  if c.toNat < 128 then isPlainWord c && c != '_'
  else Property.covers Property.alphabetic c.toNat || Property.covers Property.number c.toNat

/-- The lower case ASCII letter that a character is a form of; any other character stands for
itself. The long s and the Kelvin sign are the forms outside ASCII. -/
def foldCase (c : Char) : Char :=
  if 'A' ≤ c ∧ c ≤ 'Z' then Char.ofNat (c.toNat + 32)
  else if c.toNat = 0x17F then 's'
  else if c.toNat = 0x212A then 'k'
  else c

def sameLetter (c d : Char) : Bool :=
  foldCase c == foldCase d

def startsIdentifier (c : Char) : Bool :=
  ('a' ≤ c && c ≤ 'z') || ('A' ≤ c && c ≤ 'Z') || c == '_' || c == '$'

def continuesIdentifier (c : Char) : Bool :=
  startsIdentifier c || ('0' ≤ c && c ≤ '9')

end SnippetAudit.Text
