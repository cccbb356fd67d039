import SnippetAudit.Proofs.Json.Quoted

/-!
The text of a value by itself. Writing puts the text of a value behind what is already written, so
the two layouts differ by the blanks between the parts of a list or a table and by nothing else.
-/

namespace SnippetAudit.Json

open Decimal (Layout)

def quoted (text : String) : List Char :=
  '"' :: (text.toList.flatMap escape ++ ['"'])

def gap (style : Style) (depth : Nat) : List Char :=
  (style.lineBreak depth).toList

/-- What stands before the value of a member. -/
def nameText (style : Style) (name : String) : List Char :=
  quoted name ++ style.colon.toList

mutual

/-- The text of a value at a depth. -/
def text (style : Style) (depth : Nat) : Data → List Char
  | .null => ['n', 'u', 'l', 'l']
  | .bool true => ['t', 'r', 'u', 'e']
  | .bool false => ['f', 'a', 'l', 's', 'e']
  | .whole value => (toString value).toList
  | .decimal value => (Layout.json.text value).toList
  | .text value => quoted value
  | .list [] => ['[', ']']
  | .list (first :: rest) =>
    '[' :: (gap style (depth + 1) ++ (text style (depth + 1) first ++
      (itemsText style (depth + 1) rest ++ (gap style depth ++ [']']))))
  | .table [] => ['{', '}']
  | .table ((name, value) :: rest) =>
    '{' :: (gap style (depth + 1) ++ (nameText style name ++ (text style (depth + 1) value ++
      (membersText style (depth + 1) rest ++ (gap style depth ++ ['}'])))))

def itemsText (style : Style) (depth : Nat) : List Data → List Char
  | [] => []
  | item :: rest => ',' :: (gap style depth ++ (text style depth item ++ itemsText style depth rest))

def membersText (style : Style) (depth : Nat) : List (String × Data) → List Char
  | [] => []
  | (name, value) :: rest =>
    ',' :: (gap style depth ++ (nameText style name ++ (text style depth value ++
      membersText style depth rest)))

end

mutual

/-- A value is written as its text, whatever is already written. -/
theorem write_toList (style : Style) (depth : Nat) (out : String) :
    ∀ value, (write style depth out value).toList = out.toList ++ text style depth value
  | .null => by simp [write, text]
  | .bool true => by simp [write, text]
  | .bool false => by simp [write, text]
  | .whole value => by simp [write, text]
  | .decimal value => by simp [write, text]
  | .text value => by simp [write, text, quote, quoted]
  | .list [] => by simp [write, text]
  | .list (first :: rest) => by
    rw [write, String.toList_append, String.toList_append, writeItems_toList, write_toList]
    simp [text, gap]
  | .table [] => by simp [write, text]
  | .table ((name, value) :: rest) => by
    rw [write, String.toList_append, String.toList_append, writeMembers_toList, write_toList]
    simp [text, gap, nameText, quote, quoted]

theorem writeItems_toList (style : Style) (depth : Nat) (out : String) :
    ∀ items, (writeItems style depth out items).toList = out.toList ++ itemsText style depth items
  | [] => by simp [writeItems, itemsText]
  | item :: rest => by
    rw [writeItems, writeItems_toList, write_toList]
    simp [itemsText, gap]

theorem writeMembers_toList (style : Style) (depth : Nat) (out : String) :
    ∀ members,
      (writeMembers style depth out members).toList = out.toList ++ membersText style depth members
  | [] => by simp [writeMembers, membersText]
  | (name, value) :: rest => by
    rw [writeMembers, writeMembers_toList, write_toList]
    simp [membersText, gap, nameText, quote, quoted]

end

theorem print_toList (style : Style) (value : Data) :
    (print style value).toList = text style 0 value := by
  rw [print, write_toList]
  rfl

end SnippetAudit.Json
