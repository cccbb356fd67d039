import SnippetAudit.CommandLine.Grammar

/-!
Command lines taken apart from left to right. The values of an argument are gathered until something
else is met, and only then checked; so an argument that is not known is told of before a value that
is wrong.
-/

namespace SnippetAudit.CommandLine

/-- What has been found: the values of each argument given so far, how often counters were given,
and the argument whose values are being gathered. -/
structure Findings where
  given : List (Key × List String)
  count : Nat
  open? : Option (Key × List String)
deriving Repr, Inhabited

namespace Findings

def none : Findings :=
  ⟨[], 0, .none⟩

def has (key : Key) (found : Findings) : Bool :=
  (found.given.lookup key).isSome

def values (key : Key) (found : Findings) : List String :=
  (found.given.lookup key).getD []

def value? (key : Key) (found : Findings) : Option String :=
  (found.values key).head?

def maxCount : Nat := 255

def add (key : Key) (values : List String) (found : Findings) : Findings :=
  { found with
    given := (key, found.values key ++ values) :: found.given.filter (·.1 != key) }

/-- Checks an argument with its values and takes them up. A value that is missing is told of before
an argument that is given twice, and that before a value that is wrong. -/
def take (key : Key) (values : List String) (found : Findings) : Except Problem Findings :=
  match key.kind with
  | .wish problem => .error problem
  | .counter => .ok { found.add key [] with count := min maxCount (found.count + 1) }
  | .switch => if found.has key then .error .conflict else .ok (found.add key [])
  | .single =>
    if values.isEmpty then .error .badValue
    else if found.has key then .error .conflict
    else match values.findSome? key.problem? with
      | some problem => .error problem
      | .none => .ok (found.add key values)
  | .several =>
    match values.findSome? key.problem? with
    | some problem => .error problem
    | .none => .ok (found.add key values)

def close (found : Findings) : Except Problem Findings :=
  match found.open? with
  | .none => .ok found
  | some (key, values) => take key values { found with open? := .none }

/-- Takes up what was gathered, and then an argument with the values it came with. -/
def react (key : Key) (values : List String) (found : Findings) : Except Problem Findings :=
  found.close >>= take key values

/-- Takes up what was gathered, and gathers values of another argument. -/
def gather (key : Key) (values : List String) (found : Findings) : Except Problem Findings :=
  found.close.map fun found => { found with open? := some (key, values) }

def push (key : Key) (value : String) (found : Findings) : Except Problem Findings :=
  match found.open? with
  | some (other, values) =>
    if other = key then .ok { found with open? := some (key, values ++ [value]) }
    else found.gather key [value]
  | .none => found.gather key [value]

end Findings

/-- What an argument with a name leaves behind: nothing, or the wish for a value in the next word.
-/
abbrev Step := Findings × Option Key

def stepLong (grammar : Grammar) (word : String) (value? : Option String) (found : Findings) :
    Except Problem Step :=
  match grammar.named.find? (·.long? == some word) with
  | none => .error .unknownArgument
  | some key =>
    if key.takesValue then
      match value? with
      | some value => (found.react key [value]).map (·, none)
      | none => (found.gather key []).map (·, some key)
    else if value?.isSome then .error .needlessValue
    else (found.react key []).map (·, none)

/-- Arguments with letters, joined behind one dash. The first that takes a value takes what is left,
without an equals sign in front. -/
def stepShorts (grammar : Grammar) (found : Findings) : List Char → Except Problem Step
  | [] => .ok (found, none)
  | letter :: rest =>
    match grammar.named.find? (·.short? == some letter) with
    | none => .error .unknownArgument
    | some key =>
      if key.takesValue then
        match rest with
        | [] => (found.gather key []).map (·, some key)
        | '=' :: rest => (found.react key [String.ofList rest]).map (·, none)
        | rest => (found.react key [String.ofList rest]).map (·, none)
      else
        match found.react key [] with
        | .error problem => .error problem
        | .ok found => stepShorts grammar found rest

/-- What a word of a command line looks like. -/
inductive Shape where
  | dashes
  | long (word : String) (value? : Option String)
  | shorts (letters : List Char)
  | plain

/-- The look of a word. A dash alone is a plain word. -/
def Shape.of (word : String) : Shape :=
  match word.toList with
  | ['-', '-'] => dashes
  | '-' :: '-' :: rest =>
    let name := rest.takeWhile (· != '=')
    long (String.ofList name)
      (match rest.drop name.length with
        | _ :: value => some (String.ofList value)
        | [] => none)
  | ['-'] => plain
  | '-' :: letters => shorts letters
  | _ => plain

/-- A word without a name. The argument without a name takes one of them, unless it takes several. A
word that no argument takes is an unknown command where commands are expected, except for a command
behind two dashes, which is not recognised there. -/
def stepPlain (grammar : Grammar) (trailing : Bool) (word : String) (found : Findings) :
    Except Problem Findings :=
  let unexpected : Problem :=
    if grammar.verbs then
      if trailing && ((Verb.ofName? word).isSome || word == helpWord) then .unknownArgument
      else .unknownCommand
    else .unknownArgument
  match grammar.unnamed with
  | none => .error unexpected
  | some key =>
    if key.kind = .several then found.push key word
    else if found.has key || found.open?.any (·.1 == key) then .error unexpected
    else found.gather key [word]

/-- Scans words up to a command, which is given back with the words behind it. `awaiting` is the
argument whose value the next word is, unless it has a name of its own; behind two dashes no word
has. -/
def scan (grammar : Grammar) (awaiting : Option Key) (trailing : Bool) (found : Findings) :
    List String → Except Problem (Findings × Option (String × List String))
  | [] => .ok (found, none)
  | word :: rest =>
    if trailing then
      stepPlain grammar true word found >>= fun found => scan grammar none true found rest
    else if grammar.verbs && awaiting.isNone &&
        ((Verb.ofName? word).isSome || word == helpWord) then
      .ok (found, some (word, rest))
    else match Shape.of word with
      | .dashes => scan grammar none true found rest
      | .long name value? =>
        stepLong grammar name value? found >>= fun (found, awaiting) =>
          scan grammar awaiting false found rest
      | .shorts letters =>
        stepShorts grammar found letters >>= fun (found, awaiting) =>
          scan grammar awaiting false found rest
      | .plain =>
        match awaiting with
        | some key => found.push key word >>= fun found => scan grammar none false found rest
        | none =>
          stepPlain grammar false word found >>= fun found => scan grammar none false found rest

end SnippetAudit.CommandLine
