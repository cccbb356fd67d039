import SnippetAudit.Event
import SnippetAudit.Pattern.Build
import SnippetAudit.Text.Lines

/-!
Spans: definitions of functions found in a text, with braces or with indentation. A header with
braces opens a body that ends at the first closing brace, and counts for nothing if there is none; a
header with a colon opens a body that ends before the next definition, class, decorator or call at
the start of a line. The search goes on behind the body, so definitions inside a definition belong
to it. Whatever has the shape of a definition is taken for one: control headers, comments and quoted
text too.
-/

namespace SnippetAudit

open Text

namespace Pattern

/-- A name, from its first character to its last. -/
def identifier : Pattern :=
  next (one startsIdentifier) (many continuesIdentifier)

def parameters : Pattern :=
  sequence [blanks, char '(', many (· != ')'), char ')', blanks]

/-- A word for a type before a name, perhaps with a star. -/
def typeWord : Pattern :=
  sequence [edge, exactly ["struct", "class", "void", "int", "float", "char", "long", "double"],
    someBlanks, perhaps (char '*'), blanks]

/-- A definition with braces, as far as its opening brace. -/
def braceHeader : Pattern :=
  sequence [perhaps typeWord, identifier, parameters, char '{']

/-- A definition with indentation, as far as its colon. -/
def indentHeader : Pattern :=
  sequence [edge, exactly ["def"], someBlanks, identifier, parameters, char ':']

/-- Where a body with indentation ends: at a newline before something that starts anew. -/
def blockEnd : Pattern :=
  next (char '\n') (choice (exactly ["def"]) [next identifier (char '('),
    next (exactly ["class"]) (one isBlank), char '@'])

end Pattern

/-- A definition: its name and its body. -/
structure Span where
  name : List Char
  body : List Char
deriving DecidableEq, Repr

namespace Span

/-- How the body of a definition is bounded. -/
inductive Style where
  | braces
  | indentation
deriving DecidableEq, Repr

/-- A header: how its body is bounded, and the place behind it. -/
structure Header where
  style : Style
  stop : Place

/-- What the search for definitions knows of a place: the header that starts there, if one does,
and whether a body with indentation would end there. -/
structure Site where
  place : Place
  header : Option Header
  ends : Bool

/-- The sites of a text. Where headers of both styles start, the one with braces counts. -/
def sites (braces indentation blockEnd : Pattern) (text : List Char) : List Site :=
  List.zipWith (fun (place, brace?) ((_, indent?), (_, closes?)) =>
      ⟨place, (brace?.map (Header.mk .braces)) <|> (indent?.map (Header.mk .indentation)),
        closes?.isSome⟩)
    (braces.stops text) ((indentation.stops text).zip (blockEnd.stops text))

/-- The name in a header: the characters of an identifier right before the first parenthesis,
blanks aside. -/
def nameIn (header : List Char) : List Char :=
  let front := trimEnd (header.takeWhile (· != '('))
  (front.reverse.takeWhile continuesIdentifier).reverse

/-- The least indentation of the lines that are not blank; zero if there are none. -/
def sharedIndent (block : List Char) : Nat :=
  ((((endedLines block).filter (!isBlankLine ·)).map indent).min?).getD 0

/-- A block without the indentation that its lines share. -/
def dedent (block : List Char) : List Char :=
  let shared := sharedIndent block
  if shared = 0 then block
  else join ['\n'] ((lines block).map fun line => line.drop (min (indent line) shared))

/-- A span with a body, if there is one: a body of blanks only is none. -/
def make? (name body : List Char) : Option Span :=
  let inner := trim body
  if name.isEmpty || inner.isEmpty then none else some ⟨name, inner⟩

/-- The stretch of a text between two places of it. -/
def between (start stop : Place) : List Char :=
  start.rest.take (stop.index - start.index)

/-- The place of the first closing brace at or after a place. -/
def closing? (start : Place) : Option Place :=
  let body := start.rest.takeWhile (· != '}')
  match start.rest.drop body.length with
  | [] => none
  | rest => some ⟨start.index + body.length, body.getLast?.or start.before, rest⟩

/-- The index of the last closing brace of a text. -/
def lastClosing? (text : List Char) : Option Nat :=
  (text.reverse.findIdx? (· == '}')).map (text.length - 1 - ·)

/-- What the search takes from a header, and the index from which it goes on. Behind the last
closing brace no header with braces is closed, so none is sought there. -/
def take (lastClosing : Option Nat) (start : Place) (header : Header) (later : List Site) :
    Option Span × Nat :=
  let name := nameIn (between start header.stop)
  match header.style with
  | .braces =>
    let close? := if lastClosing.any (header.stop.index ≤ ·) then closing? header.stop else none
    match close? with
    | some close => (make? name (between header.stop close), close.index + 1)
    | none => (none, header.stop.index)
  | .indentation =>
    let end? := later.find? fun site => header.stop.index ≤ site.place.index && site.ends
    let body := match end? with
      | some site => between header.stop site.place
      | none => header.stop.rest
    (make? name (dedent body), header.stop.index + body.length)

/-- The definitions met from left to right, each sought from where the one before it left off. -/
def collect (lastClosing : Option Nat) (resume : Nat) (found : List Span) : List Site → List Span
  | [] => found.reverse
  | site :: later =>
    match site.header with
    | none => collect lastClosing resume found later
    | some header =>
      if site.place.index < resume then collect lastClosing resume found later
      else
        let (span?, next) := take lastClosing site.place header (site :: later)
        collect lastClosing next (span?.toList ++ found) later

/-- The definitions in a text, in the order of the text. -/
def extract (text : List Char) : List Span :=
  collect (lastClosing? text) 0 []
    (sites Pattern.braceHeader Pattern.indentHeader Pattern.blockEnd text)

/-- The characters of a longer identifier, as far as calls are concerned. -/
def joinsName (c : Char) : Bool :=
  isAlphanumeric c || c == '_'

/-- A call of the name in a text, the last character before which is `before`. An occurrence that
is not a call is passed over as a whole. -/
def callsIn (name : List Char) (before : Option Char) (passed : Nat) : List Char → Bool
  | [] => false
  | c :: text =>
    if passed ≠ 0 then callsIn name (some c) (passed - 1) text
    else match after? name (c :: text) with
      | none => callsIn name (some c) 0 text
      | some rest =>
        if !before.any joinsName && (trimStart rest).head? == some '(' then true
        else callsIn name (some c) (name.length - 1) text

/-- The body calls the name of the span: the name occurs, not as the end of a longer one, with a
parenthesis behind it, blanks aside. -/
def callsItself (span : Span) : Bool :=
  !span.name.isEmpty && callsIn span.name none 0 span.body

def recursive (spans : List Span) : List Span :=
  spans.filter callsItself

/-- The events that tell of spans that call themselves. -/
def recursionEvents (spans : List Span) : List Event :=
  (recursive spans).map fun span => .recursion span.name

end Span

end SnippetAudit
