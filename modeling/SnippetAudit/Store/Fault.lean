/-!
Faults: what the operating system answers when it does not do what it was asked for.
-/

namespace SnippetAudit

/-- Why a file or a folder could not be used. -/
inductive Fault where
  | missing
  | exists
  | notFolder
  | isFolder
  | nameTooLong
  | full
  | noText
  | nulInName
  | other (code : Nat) (text : String)
deriving DecidableEq, Repr, Inhabited

namespace Fault

def words : Fault → String
  | missing => "No such file or directory"
  | .exists => "File exists"
  | notFolder => "Not a directory"
  | isFolder => "Is a directory"
  | nameTooLong => "File name too long"
  | full => "No space left on device"
  | noText => "stream did not contain valid UTF-8"
  | nulInName => "file name contained an unexpected NUL byte"
  | other _ text => text

/-- The number of a fault that the system itself answered with. -/
def number? : Fault → Option Nat
  | missing => some 2
  | .exists => some 17
  | notFolder => some 20
  | isFolder => some 21
  | nameTooLong => some 36
  | full => some 28
  | noText => none
  | nulInName => none
  | other code _ => some code

/-- A fault in words, with its number if it has one. -/
def message (fault : Fault) : String :=
  match fault.number? with
  | some code => fault.words ++ " (os error " ++ toString code ++ ")"
  | none => fault.words

/-- The fault with a number; the words are for one that is not known. -/
def ofNumber (code : Nat) (text : String) : Fault :=
  ([missing, .exists, notFolder, isFolder, nameTooLong, full].find? (·.number? == some code)).getD
    (other code text)

end Fault

end SnippetAudit
