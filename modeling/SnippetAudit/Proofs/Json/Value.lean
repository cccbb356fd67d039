import SnippetAudit.Proofs.Decimal.Layout
import SnippetAudit.Proofs.Json.Reader
import SnippetAudit.Proofs.Json.Text

/-!
Values read back from their text. The fuel of the reader need not be more than the text is long, and
the depth it allows need not be more than the value is nested.
-/

namespace SnippetAudit.Json

open Decimal (Layout isFigure figures_text)
open Text

variable {fuel depth level : Nat} {rest left : List Char} {style : Style}

def ReadsBack (x : Float) : Prop :=
  read (Layout.json.text x) = some (.decimal x)

instance (x : Float) : Decidable (ReadsBack x) :=
  match found : read (Layout.json.text x) with
  | some (.decimal y) =>
    if same : y = x then isTrue (by rw [ReadsBack, found, same])
    else isFalse fun back => by
      rw [ReadsBack, found] at back
      cases back
      exact same rfl
  | none | some .null | some (.bool _) | some (.whole _) | some (.text _) | some (.list _)
  | some (.table _) => isFalse fun back => by
      rw [ReadsBack, found] at back
      cases back

theorem exists_list_of_readItems {found : List Data} {text : List Char} {value : Data}
    (read : readItems fuel depth found text = some (value, left)) :
    ∃ items, value = .list items := by
  induction fuel generalizing found text with
  | zero => cases read
  | succ fuel ih =>
    cases readItems_eq_some_iff.mp read with
    | more first comma others => exact ih others
    | last first closes => exact ⟨_, rfl⟩

theorem exists_table_of_readMembers {found : List (String × Data)} {text : List Char} {value : Data}
    (read : readMembers fuel depth found text = some (value, left)) :
    ∃ members, value = .table members := by
  induction fuel generalizing found text with
  | zero => cases read
  | succ fuel ih =>
    cases readMembers_eq_some_iff.mp read with
    | more first comma others => exact ih others
    | last first closes => exact ⟨_, rfl⟩

/-- Only a number is read as a double. -/
theorem number?_of_readValue {text : List Char} {x : Float}
    (read : readValue fuel depth text = some (.decimal x, left)) :
    number? (skipGap text) = some (.decimal x, left) := by
  cases fuel with
  | zero => cases read
  | succ fuel =>
    cases readValue_eq_some_iff.mp read with
    | list deep start opens items =>
      obtain ⟨_, same⟩ := exists_list_of_readItems items
      cases same
    | table deep start opens members =>
      obtain ⟨_, same⟩ := exists_table_of_readMembers members
      cases same
    | number number => exact number

theorem isGap_of_isFigure {c : Char} (figure : isFigure c = true) : isGap c = false := by
  cases gap : isGap c with
  | false => rfl
  | true =>
    simp only [isGap, Bool.or_eq_true, decide_eq_true_eq] at gap
    rcases gap with ((rfl | rfl) | rfl) | rfl <;> exact absurd figure (by decide)

theorem skipGap_eq_nil_iff {text : List Char} : skipGap text = [] ↔ ∀ c ∈ text, isGap c = true :=
  dropWhile_eq_nil_iff

theorem exists_of_read {text : String} {value : Data} (found : read text = some value) :
    ∃ rest, readValue (2 * text.toList.length + 2) maxDepth text.toList = some (value, rest) ∧
      skipGap rest = [] := by
  unfold read at found
  dsimp only at found
  split at found
  · rename_i value' rest first
    split at found
    · rename_i gap
      cases found
      exact ⟨rest, first, List.isEmpty_iff.mp gap⟩
    · cases found
  · cases found

theorem number?_of_readsBack {x : Float} (back : ReadsBack x) :
    number? (Layout.json.text x).toList = some (.decimal x, []) := by
  obtain ⟨rest, first, gap⟩ := exists_of_read back
  have number := number?_of_readValue first
  have visible : ∀ c ∈ (Layout.json.text x).toList, isGap c = false :=
    fun c member => isGap_of_isFigure (figures_text x c member)
  have whole : skipGap (Layout.json.text x).toList = (Layout.json.text x).toList := by
    cases start : (Layout.json.text x).toList with
    | nil => rfl
    | cons c later => exact skipGap_cons (visible c (start ▸ List.mem_cons_self)) later
  rw [whole] at number
  obtain ⟨used, parts, _, _⟩ := steady_number? _ _ _ number
  cases rest with
  | nil => exact number
  | cons c later =>
    have blank := skipGap_eq_nil_iff.mp gap c List.mem_cons_self
    rw [visible c (by rw [parts]; simp)] at blank
    cases blank

/-- Values that JSON text carries: whole numbers are of 64 bits, doubles read back, and lists and
tables are nested less deep than the reader allows. -/
inductive Carried : Nat → Data → Prop
  | null {depth : Nat} : Carried depth .null
  | bool {depth : Nat} (value : Bool) : Carried depth (.bool value)
  | whole {depth value : Nat} (small : value < Nat.pow 2 64) : Carried depth (.whole value)
  | decimal {depth : Nat} {value : Float} (back : ReadsBack value) : Carried depth (.decimal value)
  | text {depth : Nat} (value : String) : Carried depth (.text value)
  | list {depth : Nat} {items : List Data} (all : ∀ item ∈ items, Carried (depth + 1) item) :
    Carried (depth + 2) (.list items)
  | table {depth : Nat} {members : List (String × Data)}
    (all : ∀ member ∈ members, Carried (depth + 1) member.2) :
    Carried (depth + 2) (.table members)

theorem isGap_of_mem_gap {c : Char} (member : c ∈ gap style depth) : isGap c = true := by
  cases style with
  | compact => exact absurd member (by simp [gap, Style.lineBreak])
  | spread =>
    simp only [gap, Style.lineBreak, String.toList_append, String.toList_ofList, List.mem_append,
      List.mem_replicate] at member
    rcases member with newline | ⟨_, rfl⟩
    · rw [show "\n".toList = ['\n'] from rfl, List.mem_singleton] at newline
      rw [newline]
      rfl
    · rfl

theorem skipGap_gap (style : Style) (depth : Nat) (rest : List Char) :
    skipGap (gap style depth ++ rest) = skipGap rest :=
  List.dropWhile_append_of_pos fun _ => isGap_of_mem_gap

theorem readValue_skipGap {text other : List Char} (same : skipGap text = skipGap other) :
    readValue fuel depth text = readValue fuel depth other := by
  cases fuel with
  | zero => rfl
  | succ fuel => simp only [readValue, same]

/-- Blanks do not go on with a number, and neither does what comes behind them. -/
theorem stops_gap {c : Char} (other : isNumeric c = false) :
    Stops isNumeric (gap style depth ++ c :: rest) := by
  cases style with
  | compact => exact stops_cons other
  | spread =>
    simp only [gap, Style.lineBreak, String.toList_append, List.append_assoc]
    exact stops_cons rfl

/-- A value is read back from its text, whatever stands behind it. -/
def ReadBack (style : Style) (depth : Nat) (value : Data) : Prop :=
  ∀ {fuel level : Nat} {rest : List Char}, (text style level value).length < fuel →
    Stops isNumeric rest →
      readValue fuel depth (text style level value ++ rest) = some (value, rest)

theorem stops_itemsText (style : Style) (items : List Data) (level : Nat) (rest : List Char) :
    Stops isNumeric (itemsText style (level + 1) items ++ (gap style level ++ ']' :: rest)) := by
  cases items with
  | nil => exact stops_gap (by decide)
  | cons item items => exact stops_cons (by decide)

theorem stops_membersText (style : Style) (members : List (String × Data)) (level : Nat)
    (rest : List Char) :
    Stops isNumeric (membersText style (level + 1) members ++ (gap style level ++ '}' :: rest)) := by
  cases members with
  | nil => exact stops_gap (by decide)
  | cons member members => exact stops_cons (by decide)

theorem readItems_itemsText {items : List Data} {first : Data}
    (each : ∀ item ∈ first :: items, ReadBack style depth item) {found : List Data}
    (enough : (text style (level + 1) first).length +
      (itemsText style (level + 1) items).length + 1 < fuel) :
    readItems fuel depth found
      (gap style (level + 1) ++ (text style (level + 1) first ++
        (itemsText style (level + 1) items ++ (gap style level ++ ']' :: rest)))) =
      some (.list (found.reverse ++ first :: items), rest) := by
  induction items generalizing fuel first found with
  | nil =>
    obtain ⟨fuel, rfl⟩ := Nat.exists_eq_add_one.mpr (Nat.zero_lt_of_lt enough)
    have item : readValue fuel depth (text style (level + 1) first ++
        (itemsText style (level + 1) [] ++ (gap style level ++ ']' :: rest))) = some (first, _) :=
      each first List.mem_cons_self (by omega) (stops_itemsText style [] level rest)
    rw [← readValue_skipGap (skipGap_gap style (level + 1) _)] at item
    have closes : skipGap (itemsText style (level + 1) [] ++ (gap style level ++ ']' :: rest)) =
        ']' :: rest := by
      rw [itemsText, List.nil_append, skipGap_gap, skipGap_cons rfl]
    rw [readItems_eq_some_iff.mpr (.last item closes), List.reverse_cons]
  | cons second items ih =>
    obtain ⟨fuel, rfl⟩ := Nat.exists_eq_add_one.mpr (Nat.zero_lt_of_lt enough)
    have size : (itemsText style (level + 1) (second :: items)).length =
        (gap style (level + 1)).length + ((text style (level + 1) second).length +
          (itemsText style (level + 1) items).length) + 1 := by
      simp [itemsText]
    have item : readValue fuel depth (text style (level + 1) first ++
        (itemsText style (level + 1) (second :: items) ++ (gap style level ++ ']' :: rest))) =
        some (first, _) :=
      each first List.mem_cons_self (by omega) (stops_itemsText style (second :: items) level rest)
    rw [← readValue_skipGap (skipGap_gap style (level + 1) _)] at item
    have comma : skipGap (itemsText style (level + 1) (second :: items) ++
        (gap style level ++ ']' :: rest)) =
        ',' :: (gap style (level + 1) ++ (text style (level + 1) second ++
          (itemsText style (level + 1) items ++ (gap style level ++ ']' :: rest)))) := by
      rw [itemsText, List.cons_append, skipGap_cons rfl]
      simp
    refine (readItems_eq_some_iff.mpr (.more item comma
      (ih (fun item member => each item (.tail _ member)) (by omega)))).trans ?_
    simp

theorem memberAt_text {name : String} {value : Data} (back : ReadBack style depth value)
    (enough : (text style level value).length < fuel) (stops : Stops isNumeric rest) :
    MemberAt fuel depth (gap style level ++ (nameText style name ++
      (text style level value ++ rest))) name value rest := by
  have later : readValue fuel depth (style.colon.toList.tail ++ (text style level value ++ rest)) =
      some (value, rest) := by
    have blanks : skipGap (style.colon.toList.tail ++ (text style level value ++ rest)) =
        skipGap (text style level value ++ rest) := by
      cases style <;> rfl
    rw [readValue_skipGap blanks]
    exact back enough stops
  refine ⟨_, style.colon.toList ++ (text style level value ++ rest), _, ?_,
    readQuoted_quoted name _, ?_, later⟩
  · rw [skipGap_gap, nameText, quoted, List.cons_append, List.cons_append, skipGap_cons rfl]
    simp
  · cases style <;> exact skipGap_cons rfl _

theorem readMembers_membersText {members : List (String × Data)} {first : String × Data}
    (each : ∀ member ∈ first :: members, ReadBack style depth member.2)
    {found : List (String × Data)}
    (enough : (text style (level + 1) first.2).length +
      (membersText style (level + 1) members).length + 1 < fuel) :
    readMembers fuel depth found
      (gap style (level + 1) ++ (nameText style first.1 ++ (text style (level + 1) first.2 ++
        (membersText style (level + 1) members ++ (gap style level ++ '}' :: rest))))) =
      some (.table (found.reverse ++ first :: members), rest) := by
  induction members generalizing fuel first found with
  | nil =>
    obtain ⟨fuel, rfl⟩ := Nat.exists_eq_add_one.mpr (Nat.zero_lt_of_lt enough)
    have member : MemberAt fuel depth (gap style (level + 1) ++ (nameText style first.1 ++
        (text style (level + 1) first.2 ++ (membersText style (level + 1) [] ++
          (gap style level ++ '}' :: rest))))) first.1 first.2 _ :=
      memberAt_text (each first List.mem_cons_self) (by omega)
        (stops_membersText style [] level rest)
    have closes : skipGap (membersText style (level + 1) [] ++ (gap style level ++ '}' :: rest)) =
        '}' :: rest := by
      rw [membersText, List.nil_append, skipGap_gap, skipGap_cons rfl]
    rw [readMembers_eq_some_iff.mpr (.last member closes), List.reverse_cons]
  | cons second members ih =>
    obtain ⟨fuel, rfl⟩ := Nat.exists_eq_add_one.mpr (Nat.zero_lt_of_lt enough)
    have size : (membersText style (level + 1) (second :: members)).length =
        (gap style (level + 1)).length + ((nameText style second.1).length +
          ((text style (level + 1) second.2).length +
            (membersText style (level + 1) members).length)) + 1 := by
      simp [membersText]
    have member : MemberAt fuel depth (gap style (level + 1) ++ (nameText style first.1 ++
        (text style (level + 1) first.2 ++ (membersText style (level + 1) (second :: members) ++
          (gap style level ++ '}' :: rest))))) first.1 first.2 _ :=
      memberAt_text (each first List.mem_cons_self) (by omega)
        (stops_membersText style (second :: members) level rest)
    have comma : skipGap (membersText style (level + 1) (second :: members) ++
        (gap style level ++ '}' :: rest)) =
        ',' :: (gap style (level + 1) ++ (nameText style second.1 ++
          (text style (level + 1) second.2 ++ (membersText style (level + 1) members ++
            (gap style level ++ '}' :: rest))))) := by
      rw [membersText, List.cons_append, skipGap_cons rfl]
      simp
    refine (readMembers_eq_some_iff.mpr (.more member comma
      (ih (fun member listed => each member (.tail _ listed)) (by omega)))).trans ?_
    simp

theorem toList_toString_natCast (n : Nat) : (toString (n : Int)).toList = Nat.toDigits 10 n := by
  have nonneg : 0 ≤ (n : Int) := Int.natCast_nonneg n
  rw [Int.toString_eq_repr, Int.repr_eq_if, if_pos nonneg, Int.toNat_natCast, Nat.toList_repr]

/-- A value starts with a character that is no blank and closes nothing. -/
theorem exists_text_eq_cons {value : Data} (carried : Carried depth value) (style : Style)
    (level : Nat) :
    ∃ c more, text style level value = c :: more ∧ isGap c = false ∧ c ≠ ']' := by
  have number : ∀ {chars : List Char}, number? chars = some (value, []) →
      ∃ c more, chars = c :: more ∧ isGap c = false ∧ c ≠ ']' := by
    intro chars read
    obtain ⟨c, more, rfl⟩ := exists_cons_of_number? read
    have numeric := isNumeric_of_number? read
    refine ⟨c, more, rfl, isGap_of_isNumeric numeric, ?_⟩
    rintro rfl
    exact absurd numeric (by decide)
  cases carried with
  | null => exact ⟨_, _, rfl, rfl, by decide⟩
  | bool value => cases value <;> exact ⟨_, _, rfl, rfl, by decide⟩
  | @whole _ value small =>
    rw [text, toList_toString_natCast]
    exact number (number?_toDigits small)
  | decimal back =>
    rw [text]
    exact number (number?_of_readsBack back)
  | text value => exact ⟨_, _, rfl, rfl, by decide⟩
  | @list _ items all => cases items <;> exact ⟨_, _, rfl, rfl, by decide⟩
  | @table _ members all => cases members <;> exact ⟨_, _, rfl, rfl, by decide⟩

theorem readBack_list {items : List Data} (each : ∀ item ∈ items, ReadBack style (depth + 1) item)
    (carried : ∀ item ∈ items, Carried (depth + 1) item) :
    ReadBack style (depth + 2) (.list items) := by
  intro fuel level rest enough stops
  obtain ⟨fuel, rfl⟩ := Nat.exists_eq_add_one.mpr (Nat.zero_lt_of_lt enough)
  cases items with
  | nil =>
    exact readValue_eq_some_iff.mpr (.emptyList (by omega) (skipGap_cons rfl _) (skipGap_cons rfl _))
  | cons first items =>
    obtain ⟨c, more, start, visible, opens⟩ :=
      exists_text_eq_cons (carried first List.mem_cons_self) style (level + 1)
    have inside : skipGap (gap style (level + 1) ++ (text style (level + 1) first ++
        (itemsText style (level + 1) items ++ (gap style level ++ ']' :: rest)))) =
        c :: (more ++ (itemsText style (level + 1) items ++ (gap style level ++ ']' :: rest))) := by
      rw [skipGap_gap, start, List.cons_append, skipGap_cons visible]
    have whole : text style level (.list (first :: items)) ++ rest =
        '[' :: (gap style (level + 1) ++ (text style (level + 1) first ++
          (itemsText style (level + 1) items ++ (gap style level ++ ']' :: rest)))) := by
      simp [text]
    have size : (text style level (.list (first :: items))).length =
        (gap style (level + 1)).length + ((text style (level + 1) first).length +
          ((itemsText style (level + 1) items).length + ((gap style level).length + 1))) + 1 := by
      simp [text]
    rw [whole]
    refine readValue_eq_some_iff.mpr (.list (by omega) (skipGap_cons rfl _) ?_
      (readItems_itemsText each (by omega)))
    rw [inside]
    exact fun closes => opens (Option.some.inj closes)

theorem readBack_table {members : List (String × Data)}
    (each : ∀ member ∈ members, ReadBack style (depth + 1) member.2) :
    ReadBack style (depth + 2) (.table members) := by
  intro fuel level rest enough stops
  obtain ⟨fuel, rfl⟩ := Nat.exists_eq_add_one.mpr (Nat.zero_lt_of_lt enough)
  cases members with
  | nil =>
    exact readValue_eq_some_iff.mpr (.emptyTable (by omega) (skipGap_cons rfl _) (skipGap_cons rfl _))
  | cons first members =>
    have inside : skipGap (gap style (level + 1) ++ (nameText style first.1 ++
        (text style (level + 1) first.2 ++ (membersText style (level + 1) members ++
          (gap style level ++ '}' :: rest))))) =
        nameText style first.1 ++ (text style (level + 1) first.2 ++
          (membersText style (level + 1) members ++ (gap style level ++ '}' :: rest))) := by
      rw [skipGap_gap, nameText, quoted, List.cons_append, List.cons_append, skipGap_cons rfl]
    have whole : text style level (.table (first :: members)) ++ rest =
        '{' :: (gap style (level + 1) ++ (nameText style first.1 ++
          (text style (level + 1) first.2 ++ (membersText style (level + 1) members ++
            (gap style level ++ '}' :: rest))))) := by
      simp [text]
    have size : (text style level (.table (first :: members))).length =
        (gap style (level + 1)).length + ((nameText style first.1).length +
          ((text style (level + 1) first.2).length + ((membersText style (level + 1) members).length +
            ((gap style level).length + 1)))) + 1 := by
      simp [text]
    rw [whole]
    refine readValue_eq_some_iff.mpr (.table (by omega) (skipGap_cons rfl _) ?_
      (readMembers_membersText each (by omega)))
    rw [inside]
    exact fun closes => absurd (Option.some.inj closes) (by decide)

theorem readBack_of_carried {value : Data} (carried : Carried depth value) :
    ReadBack style depth value := by
  induction carried with
  | list all ih => exact readBack_list ih all
  | table all ih => exact readBack_table ih
  | null =>
    intro fuel level rest enough stops
    obtain ⟨fuel, rfl⟩ := Nat.exists_eq_add_one.mpr (Nat.zero_lt_of_lt enough)
    exact readValue_eq_some_iff.mpr (.null (skipGap_cons rfl _))
  | bool value =>
    intro fuel level rest enough stops
    obtain ⟨fuel, rfl⟩ := Nat.exists_eq_add_one.mpr (Nat.zero_lt_of_lt enough)
    cases value with
    | true => exact readValue_eq_some_iff.mpr (.yes (skipGap_cons rfl _))
    | false => exact readValue_eq_some_iff.mpr (.no (skipGap_cons rfl _))
  | @whole _ value small =>
    intro fuel level rest enough stops
    obtain ⟨fuel, rfl⟩ := Nat.exists_eq_add_one.mpr (Nat.zero_lt_of_lt enough)
    rw [text, toList_toString_natCast]
    exact readValue_number_append (number?_toDigits small) stops
  | decimal back =>
    intro fuel level rest enough stops
    obtain ⟨fuel, rfl⟩ := Nat.exists_eq_add_one.mpr (Nat.zero_lt_of_lt enough)
    exact readValue_number_append (number?_of_readsBack back) stops
  | text value =>
    intro fuel level rest enough stops
    obtain ⟨fuel, rfl⟩ := Nat.exists_eq_add_one.mpr (Nat.zero_lt_of_lt enough)
    have whole : text style level (.text value) ++ rest =
        '"' :: (value.toList.flatMap escape ++ '"' :: rest) := by
      simp [text, quoted]
    rw [whole]
    exact readValue_eq_some_iff.mpr (.text (skipGap_cons rfl _) (readQuoted_quoted value rest))

theorem eq_of_readValue_text {value found : Data} (carried : Carried depth value)
    (stops : Stops isNumeric rest) {deep : Nat}
    (read : readValue fuel deep (text style level value ++ rest) = some (found, left)) :
    found = value ∧ left = rest := by
  have back : readValue ((text style level value).length + 1) depth
      (text style level value ++ rest) = some (value, rest) :=
    readBack_of_carried carried (Nat.lt_succ_self _) stops
  exact eq_of_readValue read back

/-- Carried data reads back from its printed text, blanks behind it aside. -/
theorem read_print_append {value : Data} (carried : Carried maxDepth value) (style : Style)
    (blanks : String) (gap : ∀ c ∈ blanks.toList, isGap c = true) :
    read (print style value ++ blanks) = some value := by
  have stops : Stops isNumeric blanks.toList := by
    cases start : blanks.toList with
    | nil => exact stops_nil
    | cons c more =>
      refine stops_cons ?_
      have blank := gap c (start ▸ List.mem_cons_self)
      cases numeric : isNumeric c with
      | false => rfl
      | true => rw [isGap_of_isNumeric numeric] at blank; cases blank
  have back : readValue (2 * (text style 0 value ++ blanks.toList).length + 2) maxDepth
      (text style 0 value ++ blanks.toList) = some (value, blanks.toList) :=
    readBack_of_carried carried (by rw [List.length_append]; omega) stops
  rw [read, String.toList_append, print_toList]
  simp only [back, skipGap_eq_nil_iff.mpr gap]
  rfl

theorem read_print {value : Data} (carried : Carried maxDepth value) (style : Style) :
    read (print style value) = some value := by
  have back := read_print_append carried style "" fun c member => by cases member
  rwa [String.append_empty] at back

end SnippetAudit.Json
