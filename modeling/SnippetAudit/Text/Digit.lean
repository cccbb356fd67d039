/-!
Digits, and the numbers they stand for.
-/

namespace SnippetAudit.Text

def isDigit (c : Char) : Bool :=
  '0' ≤ c && c ≤ '9'

/-- The value of a digit; letters stand for ten and on, and any other character for thirty-six. -/
def digitValue (c : Char) : Nat :=
  if isDigit c then c.toNat - 48
  else if 'a' ≤ c ∧ c ≤ 'z' then c.toNat - 87
  else if 'A' ≤ c ∧ c ≤ 'Z' then c.toNat - 55
  else 36

/-- A digit of a base, letters included where the base has more than ten. -/
def isDigitOf (base : Nat) (c : Char) : Bool :=
  digitValue c < base

def numberOf (base : Nat) (digits : List Char) : Nat :=
  digits.foldl (fun n c => n * base + digitValue c) 0

end SnippetAudit.Text
