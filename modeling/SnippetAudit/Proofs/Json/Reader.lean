import SnippetAudit.Proofs.Json.Number
import SnippetAudit.Proofs.Json.Quoted

/-!
Values at the start of a text. A value that is read once is read again when more text follows it,
and when there is more fuel or a deeper nesting is allowed; so what is read of a text does not depend
on how it was bounded.
-/

namespace SnippetAudit.Json

open Text

variable {fuel depth more deeper : Nat} {text left rest : List Char} {value : Data}

theorem skipGap_cons {c : Char} (visible : isGap c = false) (text : List Char) :
    skipGap (c :: text) = c :: text := by
  rw [skipGap, List.dropWhile_cons_of_neg (by simp [visible])]

theorem skipGap_append {c : Char} (found : skipGap text = c :: left) (rest : List Char) :
    skipGap (text ++ rest) = c :: (left ++ rest) := by
  induction text with
  | nil => exact absurd found (List.cons_ne_nil c left).symm
  | cons d text ih =>
    cases gap : isGap d with
    | false =>
      rw [skipGap_cons gap] at found
      rw [List.cons_append, skipGap_cons gap, ← List.cons_append, found, List.cons_append]
    | true =>
      rw [skipGap, List.dropWhile_cons_of_pos gap] at found
      rw [List.cons_append, skipGap, List.dropWhile_cons_of_pos gap]
      exact ih found

theorem isGap_of_isNumeric {c : Char} (numeric : isNumeric c = true) : isGap c = false := by
  cases gap : isGap c with
  | false => rfl
  | true =>
    simp only [isGap, Bool.or_eq_true, decide_eq_true_eq] at gap
    rcases gap with ((rfl | rfl) | rfl) | rfl <;> exact absurd numeric (by decide)

theorem isNumeric_of_number? {c : Char} (read : number? (c :: text) = some (value, left)) :
    isNumeric c = true := by
  cases numeric : isNumeric c with
  | true => rfl
  | false =>
    rw [number?_cons_of_not_numeric numeric] at read
    cases read

theorem exists_cons_of_number? (read : number? text = some (value, left)) :
    ∃ c behind, text = c :: behind := by
  cases text with
  | nil =>
    rw [number?_nil] at read
    cases read
  | cons c text => exact ⟨c, text, rfl⟩

theorem skipGap_of_number? (read : number? text = some (value, left)) : skipGap text = text := by
  obtain ⟨c, behind, rfl⟩ := exists_cons_of_number? read
  exact skipGap_cons (isGap_of_isNumeric (isNumeric_of_number? read)) behind

/-- The ways in which a value is read, by the first character that is no blank. -/
inductive ValueAt (fuel depth : Nat) (text : List Char) : Data → List Char → Prop
  | null {left : List Char} (start : skipGap text = 'n' :: 'u' :: 'l' :: 'l' :: left) :
    ValueAt fuel depth text .null left
  | yes {left : List Char} (start : skipGap text = 't' :: 'r' :: 'u' :: 'e' :: left) :
    ValueAt fuel depth text (.bool true) left
  | no {left : List Char} (start : skipGap text = 'f' :: 'a' :: 'l' :: 's' :: 'e' :: left) :
    ValueAt fuel depth text (.bool false) left
  | text {inner left : List Char} {value : String} (start : skipGap text = '"' :: inner)
    (quoted : readQuoted [] inner = some (value, left)) : ValueAt fuel depth text (.text value) left
  | emptyList {inner left : List Char} (deep : 1 < depth) (start : skipGap text = '[' :: inner)
    (closes : skipGap inner = ']' :: left) : ValueAt fuel depth text (.list []) left
  | list {inner left : List Char} {value : Data} (deep : 1 < depth)
    (start : skipGap text = '[' :: inner) (opens : (skipGap inner).head? ≠ some ']')
    (items : readItems fuel (depth - 1) [] inner = some (value, left)) :
    ValueAt fuel depth text value left
  | emptyTable {inner left : List Char} (deep : 1 < depth) (start : skipGap text = '{' :: inner)
    (closes : skipGap inner = '}' :: left) : ValueAt fuel depth text (.table []) left
  | table {inner left : List Char} {value : Data} (deep : 1 < depth)
    (start : skipGap text = '{' :: inner) (opens : (skipGap inner).head? ≠ some '}')
    (members : readMembers fuel (depth - 1) [] inner = some (value, left)) :
    ValueAt fuel depth text value left
  | number {left : List Char} {value : Data} (read : number? (skipGap text) = some (value, left)) :
    ValueAt fuel depth text value left

/-- The ways in which the items of a list are read: there is one more item, or it is the last. -/
inductive ItemsAt (fuel depth : Nat) (found : List Data) (text : List Char) :
    Data → List Char → Prop
  | more {item value : Data} {between behind left : List Char}
    (first : readValue fuel depth text = some (item, between))
    (comma : skipGap between = ',' :: behind)
    (rest : readItems fuel depth (item :: found) behind = some (value, left)) :
    ItemsAt fuel depth found text value left
  | last {item : Data} {between left : List Char}
    (first : readValue fuel depth text = some (item, between))
    (closes : skipGap between = ']' :: left) :
    ItemsAt fuel depth found text (.list (item :: found).reverse) left

def MemberAt (fuel depth : Nat) (text : List Char) (name : String) (value : Data)
    (left : List Char) : Prop :=
  ∃ inner behind later, skipGap text = '"' :: inner ∧ readQuoted [] inner = some (name, behind) ∧
    skipGap behind = ':' :: later ∧ readValue fuel depth later = some (value, left)

/-- The ways in which the members of a table are read: there is one more member, or it is the last.
-/
inductive MembersAt (fuel depth : Nat) (found : List (String × Data)) (text : List Char) :
    Data → List Char → Prop
  | more {name : String} {item value : Data} {between behind left : List Char}
    (first : MemberAt fuel depth text name item between)
    (comma : skipGap between = ',' :: behind)
    (rest : readMembers fuel depth ((name, item) :: found) behind = some (value, left)) :
    MembersAt fuel depth found text value left
  | last {name : String} {item : Data} {between left : List Char}
    (first : MemberAt fuel depth text name item between)
    (closes : skipGap between = '}' :: left) :
    MembersAt fuel depth found text (.table ((name, item) :: found).reverse) left

theorem readValue_eq_some_iff :
    readValue (fuel + 1) depth text = some (value, left) ↔ ValueAt fuel depth text value left := by
  rw [readValue]
  constructor
  · intro read
    split at read
    · cases read
      exact .null ‹_›
    · cases read
      exact .yes ‹_›
    · cases read
      exact .no ‹_›
    · obtain ⟨⟨name, behind⟩, quoted, same⟩ := Option.map_eq_some_iff.mp read
      cases same
      exact .text ‹_› quoted
    · split at read
      · cases read
      · rename_i shallow
        have deep : 1 < depth := Nat.lt_of_not_le shallow
        split at read
        · cases read
          exact .emptyList deep ‹_› ‹_›
        · rename_i opens
          refine .list deep ‹_› ?_ read
          intro starts
          obtain ⟨behind, same⟩ := List.head?_eq_some_iff.mp starts
          exact opens behind same
    · split at read
      · cases read
      · rename_i shallow
        have deep : 1 < depth := Nat.lt_of_not_le shallow
        split at read
        · cases read
          exact .emptyTable deep ‹_› ‹_›
        · rename_i opens
          refine .table deep ‹_› ?_ read
          intro starts
          obtain ⟨behind, same⟩ := List.head?_eq_some_iff.mp starts
          exact opens behind same
    · exact .number read
  · intro valueAt
    cases valueAt with
    | null start => simp only [start]
    | yes start => simp only [start]
    | no start => simp only [start]
    | text start quoted => simp only [start, quoted, Option.map_some]
    | emptyList deep start closes => simp only [start, if_neg (Nat.not_le_of_lt deep), closes]
    | list deep start opens items =>
      simp only [start, if_neg (Nat.not_le_of_lt deep)]
      split
      · rename_i closes
        rw [closes] at opens
        exact absurd rfl opens
      · exact items
    | emptyTable deep start closes => simp only [start, if_neg (Nat.not_le_of_lt deep), closes]
    | table deep start opens members =>
      simp only [start, if_neg (Nat.not_le_of_lt deep)]
      split
      · rename_i closes
        rw [closes] at opens
        exact absurd rfl opens
      · exact members
    | number read =>
      obtain ⟨c, behind, start⟩ := exists_cons_of_number? read
      have numeric : isNumeric c = true := isNumeric_of_number? (start ▸ read)
      split
      all_goals first
        | exact read
        | rename_i same
          rw [start] at same
          rw [(List.cons.inj same).1] at numeric
          exact absurd numeric (by decide)

theorem readItems_eq_some_iff {found : List Data} :
    readItems (fuel + 1) depth found text = some (value, left) ↔
      ItemsAt fuel depth found text value left := by
  rw [readItems]
  constructor
  · intro read
    split at read
    · cases read
    · rename_i first
      split at read
      · exact .more first ‹_› read
      · cases read
        exact .last first ‹_›
      · cases read
  · intro itemsAt
    cases itemsAt with
    | more first comma rest => simp only [first, comma, rest]
    | last first closes => simp only [first, closes]

theorem readMembers_eq_some_iff {found : List (String × Data)} :
    readMembers (fuel + 1) depth found text = some (value, left) ↔
      MembersAt fuel depth found text value left := by
  rw [readMembers]
  constructor
  · intro read
    split at read
    · rename_i start
      split at read
      · cases read
      · rename_i named
        split at read
        · rename_i colon
          split at read
          · cases read
          · rename_i item
            split at read
            · exact .more ⟨_, _, _, start, named, colon, item⟩ ‹_› read
            · cases read
              exact .last ⟨_, _, _, start, named, colon, item⟩ ‹_›
            · cases read
        · cases read
    · cases read
  · intro membersAt
    cases membersAt with
    | more first comma rest =>
      obtain ⟨_, _, _, start, named, colon, item⟩ := first
      simp only [start, named, colon, item, comma, rest]
    | last first closes =>
      obtain ⟨_, _, _, start, named, colon, item⟩ := first
      simp only [start, named, colon, item, closes]

theorem exists_skipGap_of_readValue (read : readValue fuel depth text = some (value, left)) :
    ∃ c behind, skipGap text = c :: behind := by
  cases fuel with
  | zero => cases read
  | succ fuel =>
    cases readValue_eq_some_iff.mp read with
    | number read => exact exists_cons_of_number? read
    | _ => exact ⟨_, _, ‹_›⟩

theorem exists_skipGap_of_readItems {found : List Data}
    (read : readItems fuel depth found text = some (value, left)) :
    ∃ c behind, skipGap text = c :: behind := by
  cases fuel with
  | zero => cases read
  | succ fuel =>
    cases readItems_eq_some_iff.mp read with
    | more first _ _ => exact exists_skipGap_of_readValue first
    | last first _ => exact exists_skipGap_of_readValue first

theorem exists_skipGap_of_readMembers {found : List (String × Data)}
    (read : readMembers fuel depth found text = some (value, left)) :
    ∃ c behind, skipGap text = c :: behind := by
  cases fuel with
  | zero => cases read
  | succ fuel =>
    cases readMembers_eq_some_iff.mp read with
    | more first _ _ | last first _ =>
      obtain ⟨_, _, _, start, _⟩ := first
      exact ⟨_, _, start⟩

/-- A text that is a number is read as that number when it is followed by something else. -/
theorem readValue_number_append (read : number? text = some (value, []))
    (stops : Stops isNumeric rest) :
    readValue (fuel + 1) depth (text ++ rest) = some (value, rest) := by
  obtain ⟨_, _, _, longer⟩ := steady_number? _ _ _ read
  have number : number? (text ++ rest) = some (value, rest) := longer rest stops
  exact readValue_eq_some_iff.mpr (.number (by rwa [skipGap_of_number? number]))

/-- What a reader takes of a text, it takes of the longer text as well, with more fuel too and where
a deeper nesting is allowed. -/
def Lasts (rest : List Char) (fuel : Nat)
    (reader : Nat → Nat → List Char → Option (Data × List Char)) : Prop :=
  ∀ (more depth deeper : Nat) (text left : List Char) (value : Data),
    reader fuel depth text = some (value, left) → fuel ≤ more → depth ≤ deeper →
      reader more deeper (text ++ rest) = some (value, left ++ rest)

theorem Lasts.zero {reader : Nat → Nat → List Char → Option (Data × List Char)}
    (refuses : ∀ depth text, reader 0 depth text = none) : Lasts rest 0 reader := by
  intro more depth deeper text left value read
  rw [refuses] at read
  cases read

theorem lasts_readItems_succ (values : Lasts rest fuel readValue)
    (items : ∀ found, Lasts rest fuel (readItems · · found)) (found : List Data) :
    Lasts rest (fuel + 1) (readItems · · found) := by
  intro more depth deeper text left value read enough deep
  obtain ⟨more, rfl⟩ := Nat.exists_eq_add_of_le' (Nat.le_trans (Nat.le_add_left 1 fuel) enough)
  have less : fuel ≤ more := Nat.le_of_succ_le_succ enough
  refine readItems_eq_some_iff.mpr ?_
  cases readItems_eq_some_iff.mp read with
  | more first comma others =>
    exact .more (values _ _ _ _ _ _ first less deep) (skipGap_append comma rest)
      (items _ _ _ _ _ _ _ others less deep)
  | last first closes =>
    exact .last (values _ _ _ _ _ _ first less deep) (skipGap_append closes rest)

theorem MemberAt.append {more deeper : Nat} {name : String} (values : Lasts rest fuel readValue)
    (member : MemberAt fuel depth text name value left) (less : fuel ≤ more)
    (deep : depth ≤ deeper) : MemberAt more deeper (text ++ rest) name value (left ++ rest) := by
  obtain ⟨inner, behind, later, start, named, colon, item⟩ := member
  exact ⟨inner ++ rest, behind ++ rest, later ++ rest, skipGap_append start rest,
    readQuoted_append named rest, skipGap_append colon rest, values _ _ _ _ _ _ item less deep⟩

theorem lasts_readMembers_succ (values : Lasts rest fuel readValue)
    (members : ∀ found, Lasts rest fuel (readMembers · · found))
    (found : List (String × Data)) : Lasts rest (fuel + 1) (readMembers · · found) := by
  intro more depth deeper text left value read enough deep
  obtain ⟨more, rfl⟩ := Nat.exists_eq_add_of_le' (Nat.le_trans (Nat.le_add_left 1 fuel) enough)
  have less : fuel ≤ more := Nat.le_of_succ_le_succ enough
  refine readMembers_eq_some_iff.mpr ?_
  cases readMembers_eq_some_iff.mp read with
  | more first comma others =>
    exact .more (first.append values less deep) (skipGap_append comma rest)
      (members _ _ _ _ _ _ _ others less deep)
  | last first closes =>
    exact .last (first.append values less deep) (skipGap_append closes rest)

theorem lasts_readValue_succ (stops : Stops isNumeric rest)
    (items : ∀ found, Lasts rest fuel (readItems · · found))
    (members : ∀ found, Lasts rest fuel (readMembers · · found)) :
    Lasts rest (fuel + 1) readValue := by
  intro more depth deeper text left value read enough deep
  obtain ⟨more, rfl⟩ := Nat.exists_eq_add_of_le' (Nat.le_trans (Nat.le_add_left 1 fuel) enough)
  have less : fuel ≤ more := Nat.le_of_succ_le_succ enough
  refine readValue_eq_some_iff.mpr ?_
  cases readValue_eq_some_iff.mp read with
  | null start => exact .null (skipGap_append start rest)
  | yes start => exact .yes (skipGap_append start rest)
  | no start => exact .no (skipGap_append start rest)
  | text start quoted => exact .text (skipGap_append start rest) (readQuoted_append quoted rest)
  | emptyList nested start closes =>
    exact .emptyList (by omega) (skipGap_append start rest) (skipGap_append closes rest)
  | list nested start opens read =>
    obtain ⟨c, behind, inside⟩ := exists_skipGap_of_readItems read
    rw [inside] at opens
    exact .list (by omega) (skipGap_append start rest) (by rwa [skipGap_append inside])
      (items _ _ _ _ _ _ _ read less (by omega))
  | emptyTable nested start closes =>
    exact .emptyTable (by omega) (skipGap_append start rest) (skipGap_append closes rest)
  | table nested start opens read =>
    obtain ⟨c, behind, inside⟩ := exists_skipGap_of_readMembers read
    rw [inside] at opens
    exact .table (by omega) (skipGap_append start rest) (by rwa [skipGap_append inside])
      (members _ _ _ _ _ _ _ read less (by omega))
  | number read =>
    obtain ⟨c, behind, start⟩ := exists_cons_of_number? read
    obtain ⟨_, _, _, longer⟩ := steady_number? _ _ _ read
    refine .number ?_
    rw [skipGap_append start, ← List.cons_append, ← start]
    exact longer rest stops

/-- What is read at the start of a text is read at the start of every longer text that does not go on
with a number. -/
theorem lasts (stops : Stops isNumeric rest) (fuel : Nat) :
    Lasts rest fuel readValue ∧ (∀ found, Lasts rest fuel (readItems · · found)) ∧
      ∀ found, Lasts rest fuel (readMembers · · found) := by
  induction fuel with
  | zero =>
    exact ⟨.zero fun _ _ => rfl, fun _ => .zero fun _ _ => rfl, fun _ => .zero fun _ _ => rfl⟩
  | succ fuel ih =>
    obtain ⟨values, items, members⟩ := ih
    exact ⟨lasts_readValue_succ stops items members, lasts_readItems_succ values items,
      lasts_readMembers_succ values members⟩

/-- What is read of a text depends neither on the fuel nor on the depth that is allowed. -/
theorem eq_of_readValue {other : Data} {behind : List Char}
    (first : readValue fuel depth text = some (value, left))
    (second : readValue more deeper text = some (other, behind)) : value = other ∧ left = behind := by
  have long := (lasts stops_nil fuel).1 (max fuel more) depth (max depth deeper) _ _ _ first
    (Nat.le_max_left _ _) (Nat.le_max_left _ _)
  have longer := (lasts stops_nil more).1 (max fuel more) deeper (max depth deeper) _ _ _ second
    (Nat.le_max_right _ _) (Nat.le_max_right _ _)
  rw [longer, List.append_nil, List.append_nil] at long
  cases long
  exact ⟨rfl, rfl⟩

end SnippetAudit.Json
