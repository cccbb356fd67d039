/-!
Coloured text for terminals: escape sequences that switch effects on before a text and off behind
it.
-/

namespace SnippetAudit

/-- An effect that a terminal shows text with. -/
inductive Effect where
  | bold
  | dimmed
  | red
  | green
  | yellow
  | blue
deriving DecidableEq, Repr

/-- The number of an effect in an escape sequence. -/
def Effect.code : Effect → String
  | bold => "1"
  | dimmed => "2"
  | red => "31"
  | green => "32"
  | yellow => "33"
  | blue => "34"

namespace Ink

def start (effects : List Effect) : List Char :=
  ['\x1b', '['] ++ (";".intercalate (effects.map Effect.code)).toList ++ ['m']

def stop : List Char :=
  ['\x1b', '[', '0', 'm']

/-- A text in which effects are switched on again wherever it switches them off. -/
def resume (again : List Char) : List Char → List Char
  | '\x1b' :: '[' :: '0' :: 'm' :: rest =>
    '\x1b' :: '[' :: '0' :: 'm' :: (again ++ resume again rest)
  | c :: rest => c :: resume again rest
  | [] => []

/-- A text with effects, where colours are wanted. Without effects it stays as it is. -/
def paint (colors : Bool) (effects : List Effect) (text : String) : String :=
  if colors && !effects.isEmpty then
    String.ofList (start effects ++ (resume (start effects) text.toList ++ stop))
  else text

end Ink

def padLeft (width : Nat) (text : String) : String :=
  String.ofList (List.replicate (width - text.length) ' ') ++ text

end SnippetAudit
