import SnippetAudit.Proofs.Json.Cut

/-!
Lists and tables that are cut off. When the text of a table goes on after the cut with the start of
another table, no value is read of it, wherever the cut is and whatever comes behind.
-/

namespace SnippetAudit.Json

open Text

variable {fuel depth level : Nat} {front rest left : List Char} {value found : Data}

theorem gap_compact : gap .compact level = [] := rfl

/-- Behind the part of a value that is left of a text there is no mark, unless it is the whole value
and the cut is behind it. -/
theorem Alien.behind_value (alien : Alien rest) {value : Data} (severed : Severed value)
    {deep : Nat} (carried : Carried deep value) {tail : List Char} (apart : Stops isNumeric tail)
    (cut : Cut front (text .compact level value ++ tail))
    (read : readValue fuel depth (front ++ rest) = some (found, left)) :
    Stops follows left ∨ ∃ behind, left = behind ++ rest ∧ Cut behind tail := by
  rcases cut_append cut with inside | ⟨behind, rfl, later⟩
  · by_cases empty : front = []
    · rw [empty] at read
      exact Or.inl (alien.value read)
    · exact Or.inl (severed inside empty alien read)
  · have stops : Stops isNumeric (behind ++ rest) := by
      cases behind with
      | nil => exact alien.stops rfl
      | cons c behind => exact stops_cons (apart c (later.head? rfl))
    rw [List.append_assoc] at read
    exact Or.inr ⟨behind, (eq_of_readValue_text carried stops read).2, later⟩

theorem Alien.behind_item (alien : Alien rest) {first : Data} {items : List Data}
    (severed : Severed first) {deep : Nat} (carried : Carried deep first)
    (cut : Cut front
      (text .compact (level + 1) first ++ (itemsText .compact (level + 1) items ++ [']'])))
    (read : readValue fuel depth (front ++ rest) = some (found, left)) :
    Stops follows left ∨ ∃ second later behind, items = second :: later ∧
      left = ',' :: (behind ++ rest) ∧ Cut behind
        (text .compact (level + 1) second ++ (itemsText .compact (level + 1) later ++ [']'])) := by
  have apart : Stops isNumeric (itemsText .compact (level + 1) items ++ [']']) :=
    stops_itemsText .compact items level []
  rcases alien.behind_value severed carried apart cut read with stops | ⟨behind, rfl, inside⟩
  · exact Or.inl stops
  · cases items with
    | nil =>
      rcases cut_cons inside with rfl | ⟨more, rfl, last⟩
      · exact Or.inl (alien.stops rfl)
      · exact absurd last not_cut_nil
    | cons second later =>
      have tail : itemsText .compact (level + 1) (second :: later) ++ [']'] = ',' ::
          (text .compact (level + 1) second ++ (itemsText .compact (level + 1) later ++ [']'])) := by
        rw [itemsText, List.cons_append, gap_compact, List.nil_append, List.append_assoc]
      rw [tail] at inside
      rcases cut_cons inside with rfl | ⟨more, rfl, deeper⟩
      · exact Or.inl (alien.stops rfl)
      · exact Or.inr ⟨second, later, more, rfl, rfl, deeper⟩

theorem Alien.readItems_cut (alien : Alien rest) {first : Data} {items : List Data}
    (each : ∀ item ∈ first :: items, Severed item) {deep : Nat}
    (carried : ∀ item ∈ first :: items, Carried deep item) {found : List Data}
    (cut : Cut front
      (text .compact (level + 1) first ++ (itemsText .compact (level + 1) items ++ [']']))) :
    readItems fuel depth found (front ++ rest) = none := by
  induction fuel generalizing first items front found with
  | zero => rfl
  | succ fuel ih =>
    refine Option.eq_none_iff_forall_ne_some.mpr fun ⟨value, left⟩ read => ?_
    have severed := each first List.mem_cons_self
    have firstCarried := carried first List.mem_cons_self
    cases readItems_eq_some_iff.mp read with
    | more item comma others =>
      rcases alien.behind_item severed firstCarried cut item with
        stops | ⟨second, later, behind, rfl, rfl, inside⟩
      · exact not_skipGap_of_stops_follows stops rfl comma
      · rw [skipGap_cons rfl] at comma
        cases comma
        rw [ih (fun item listed => each item (.tail _ listed))
          (fun item listed => carried item (.tail _ listed)) inside] at others
        cases others
    | last item closes =>
      rcases alien.behind_item severed firstCarried cut item with
        stops | ⟨second, later, behind, rfl, rfl, inside⟩
      · exact not_skipGap_of_stops_follows stops rfl closes
      · rw [skipGap_cons rfl] at closes
        cases closes

/-- Behind a name and the part of a value that is left of a text there is no mark, unless it is the
whole value and another member has been begun. -/
theorem Alien.behind_member (alien : Alien rest) {first : String × Data}
    {members : List (String × Data)} (severed : Severed first.2) {deep : Nat}
    (carried : Carried deep first.2)
    (cut : Cut front (nameText .compact first.1 ++ (text .compact (level + 1) first.2 ++
      (membersText .compact (level + 1) members ++ ['}']))))
    {name : String} (member : MemberAt fuel depth (front ++ rest) name found left) :
    Stops follows left ∨ ∃ second later behind, members = second :: later ∧
      left = ',' :: (behind ++ rest) ∧ Cut behind (nameText .compact second.1 ++
        (text .compact (level + 1) second.2 ++
          (membersText .compact (level + 1) later ++ ['}']))) := by
  obtain ⟨inner, behind, later, start, named, colon, item⟩ := member
  have whole : nameText .compact first.1 ++ (text .compact (level + 1) first.2 ++
      (membersText .compact (level + 1) members ++ ['}'])) =
      '"' :: ((first.1.toList.flatMap escape ++ ['"']) ++ (':' ::
        (text .compact (level + 1) first.2 ++
          (membersText .compact (level + 1) members ++ ['}'])))) := by
    rw [nameText, Json.quoted, List.append_assoc, List.cons_append]
    rfl
  rw [whole] at cut
  rcases cut_cons cut with rfl | ⟨front, rfl, inQuotes⟩
  · rcases alien.start with rfl | ⟨more, rfl⟩ <;> cases start
  rw [List.cons_append, skipGap_cons rfl] at start
  cases start
  rcases cut_append inQuotes with broken | ⟨front, rfl, behindName⟩
  · exact absurd colon
      (not_skipGap_of_stops_follows (alien.stops_of_readQuoted_cut broken named) rfl)
  have read := readQuoted_quoted first.1 (front ++ rest)
  rw [List.append_assoc, List.append_assoc, List.singleton_append, read] at named
  cases named
  rcases cut_cons behindName with rfl | ⟨front, rfl, behindColon⟩
  · exact absurd colon (not_skipGap_of_stops_follows (alien.stops rfl) rfl)
  rw [List.cons_append, skipGap_cons rfl] at colon
  cases colon
  have apart : Stops isNumeric (membersText .compact (level + 1) members ++ ['}']) :=
    stops_membersText .compact members level []
  rcases alien.behind_value severed carried apart behindColon item with
    stops | ⟨behind, rfl, inside⟩
  · exact Or.inl stops
  · cases members with
    | nil =>
      rcases cut_cons inside with rfl | ⟨more, rfl, last⟩
      · exact Or.inl (alien.stops rfl)
      · exact absurd last not_cut_nil
    | cons second later =>
      have tail : membersText .compact (level + 1) (second :: later) ++ ['}'] = ',' ::
          (nameText .compact second.1 ++ (text .compact (level + 1) second.2 ++
            (membersText .compact (level + 1) later ++ ['}']))) := by
        rw [membersText, List.cons_append, gap_compact, List.nil_append, List.append_assoc,
          List.append_assoc]
      rw [tail] at inside
      rcases cut_cons inside with rfl | ⟨more, rfl, deeper⟩
      · exact Or.inl (alien.stops rfl)
      · exact Or.inr ⟨second, later, more, rfl, rfl, deeper⟩

/-- Nothing is read of the members of a table that are cut off. -/
theorem Alien.readMembers_cut (alien : Alien rest) {first : String × Data}
    {members : List (String × Data)} (each : ∀ member ∈ first :: members, Severed member.2)
    {deep : Nat} (carried : ∀ member ∈ first :: members, Carried deep member.2)
    {found : List (String × Data)}
    (cut : Cut front (nameText .compact first.1 ++ (text .compact (level + 1) first.2 ++
      (membersText .compact (level + 1) members ++ ['}'])))) :
    readMembers fuel depth found (front ++ rest) = none := by
  induction fuel generalizing first members front found with
  | zero => rfl
  | succ fuel ih =>
    refine Option.eq_none_iff_forall_ne_some.mpr fun ⟨value, left⟩ read => ?_
    have severed := each first List.mem_cons_self
    have firstCarried := carried first List.mem_cons_self
    cases readMembers_eq_some_iff.mp read with
    | more member comma others =>
      rcases alien.behind_member severed firstCarried cut member with
        stops | ⟨second, later, behind, rfl, rfl, inside⟩
      · exact not_skipGap_of_stops_follows stops rfl comma
      · rw [skipGap_cons rfl] at comma
        cases comma
        rw [ih (fun member listed => each member (.tail _ listed))
          (fun member listed => carried member (.tail _ listed)) inside] at others
        cases others
    | last member closes =>
      rcases alien.behind_member severed firstCarried cut member with
        stops | ⟨second, later, behind, rfl, rfl, inside⟩
      · exact not_skipGap_of_stops_follows stops rfl closes
      · rw [skipGap_cons rfl] at closes
        cases closes

theorem exists_readQuoted_of_readValue {inner : List Char}
    (read : readValue fuel depth ('"' :: inner) = some (value, left)) :
    ∃ text, readQuoted [] inner = some (text, left) := by
  rcases readValue_cons_cases rfl read with
    ⟨word, listed, same⟩ | ⟨_, quoted⟩ | ⟨other, _⟩ | ⟨other, _⟩ | ⟨numeric, _⟩
  · exact absurd (head_of_word listed same) (by decide)
  · exact quoted
  · exact absurd other (by decide)
  · exact absurd other (by decide)
  · exact absurd numeric (by decide)

theorem readValue_bracket {inner : List Char} (unclosed : ∀ left, skipGap inner ≠ ']' :: left)
    (unread : ∀ fuel depth, readItems fuel depth [] inner = none) :
    readValue fuel depth ('[' :: inner) = none := by
  refine Option.eq_none_iff_forall_ne_some.mpr fun ⟨value, left⟩ read => ?_
  rcases readValue_cons_cases rfl read with
    ⟨word, listed, same⟩ | ⟨other, _⟩ | ⟨_, closes | ⟨_, _, items⟩⟩ | ⟨other, _⟩ | ⟨numeric, _⟩
  · exact absurd (head_of_word listed same) (by decide)
  · exact absurd other (by decide)
  · exact unclosed left closes
  · rw [unread] at items
    cases items
  · exact absurd other (by decide)
  · exact absurd numeric (by decide)

theorem readValue_brace {inner : List Char} (unclosed : ∀ left, skipGap inner ≠ '}' :: left)
    (unread : ∀ fuel depth, readMembers fuel depth [] inner = none) :
    readValue fuel depth ('{' :: inner) = none := by
  refine Option.eq_none_iff_forall_ne_some.mpr fun ⟨value, left⟩ read => ?_
  rcases readValue_cons_cases rfl read with
    ⟨word, listed, same⟩ | ⟨other, _⟩ | ⟨other, _⟩ | ⟨_, closes | ⟨_, _, members⟩⟩ | ⟨numeric, _⟩
  · exact absurd (head_of_word listed same) (by decide)
  · exact absurd other (by decide)
  · exact absurd other (by decide)
  · exact unclosed left closes
  · rw [unread] at members
    cases members
  · exact absurd numeric (by decide)

theorem Alien.readItems (alien : Alien rest) {found : List Data} :
    readItems fuel depth found rest = none := by
  refine Option.eq_none_iff_forall_ne_some.mpr fun ⟨value, left⟩ read => ?_
  cases fuel with
  | zero => cases read
  | succ fuel =>
    cases readItems_eq_some_iff.mp read with
    | more first mark _ | last first mark =>
      exact not_skipGap_of_stops_follows (alien.value first) rfl mark

theorem Alien.readMembers (alien : Alien rest) {found : List (String × Data)} :
    readMembers fuel depth found rest = none := by
  refine Option.eq_none_iff_forall_ne_some.mpr fun ⟨value, left⟩ read => ?_
  obtain ⟨c, behind, start⟩ := exists_skipGap_of_readMembers read
  cases fuel with
  | zero => cases read
  | succ fuel =>
    cases readMembers_eq_some_iff.mp read with
    | more first _ _ | last first _ =>
      obtain ⟨_, _, _, quote, _⟩ := first
      rcases alien.start with rfl | ⟨more, rfl⟩ <;> cases quote

theorem Alien.readValue_list (alien : Alien rest) {items : List Data}
    (each : ∀ item ∈ items, Severed item) {deep : Nat}
    (carried : ∀ item ∈ items, Carried deep item)
    (cut : Cut front (text .compact level (.list items))) (some' : front ≠ []) :
    readValue fuel depth (front ++ rest) = none := by
  cases items with
  | nil =>
    rcases cut_cons cut with rfl | ⟨behind, rfl, inside⟩
    · exact absurd rfl some'
    rcases cut_cons inside with rfl | ⟨more, rfl, last⟩
    · exact readValue_bracket (fun left => not_skipGap_of_stops_follows (alien.stops rfl) rfl)
        fun fuel depth => alien.readItems
    · exact absurd last not_cut_nil
  | cons first items =>
    rcases cut_cons cut with rfl | ⟨behind, rfl, inside⟩
    · exact absurd rfl some'
    rw [gap_compact, gap_compact, List.nil_append, List.nil_append] at inside
    refine readValue_bracket (fun left closes => ?_) fun fuel depth =>
      alien.readItems_cut each carried inside
    cases behind with
    | nil => exact not_skipGap_of_stops_follows (alien.stops rfl) rfl closes
    | cons c behind =>
      obtain ⟨d, more, start, visible, opens⟩ :=
        exists_text_eq_cons (carried first List.mem_cons_self) .compact (level + 1)
      have same := inside.head? rfl
      rw [start] at same
      cases same
      have same : c :: (behind ++ rest) = ']' :: left := skipGap_cons visible (behind ++ rest) ▸ closes
      exact opens (List.cons.inj same).1

theorem Alien.readValue_table (alien : Alien rest) {members : List (String × Data)}
    (each : ∀ member ∈ members, Severed member.2) {deep : Nat}
    (carried : ∀ member ∈ members, Carried deep member.2)
    (cut : Cut front (text .compact level (.table members))) (some' : front ≠ []) :
    readValue fuel depth (front ++ rest) = none := by
  cases members with
  | nil =>
    rcases cut_cons cut with rfl | ⟨behind, rfl, inside⟩
    · exact absurd rfl some'
    rcases cut_cons inside with rfl | ⟨more, rfl, last⟩
    · exact readValue_brace (fun left => not_skipGap_of_stops_follows (alien.stops rfl) rfl)
        fun fuel depth => alien.readMembers
    · exact absurd last not_cut_nil
  | cons first members =>
    rcases cut_cons cut with rfl | ⟨behind, rfl, inside⟩
    · exact absurd rfl some'
    rw [gap_compact, gap_compact, List.nil_append, List.nil_append] at inside
    refine readValue_brace (fun left closes => ?_) fun fuel depth =>
      alien.readMembers_cut each carried inside
    cases behind with
    | nil => exact not_skipGap_of_stops_follows (alien.stops rfl) rfl closes
    | cons c behind =>
      have same := inside.head? rfl
      cases same
      cases closes

theorem severed_of_mem_words {value : Data} (word : List Char) (listed : word ∈ words)
    (same : ∀ level, text .compact level value = word) : Severed value := by
  intro level fuel depth front rest left found cut some' alien read
  rw [same] at cut
  rw [alien.readValue_word listed cut some'] at read
  cases read

theorem severed_of_carried {value : Data} (carried : Carried depth value) : Severed value := by
  induction carried with
  | null => exact severed_of_mem_words ['n', 'u', 'l', 'l'] (by decide) fun _ => rfl
  | bool value =>
    cases value with
    | true => exact severed_of_mem_words ['t', 'r', 'u', 'e'] (by decide) fun _ => rfl
    | false => exact severed_of_mem_words ['f', 'a', 'l', 's', 'e'] (by decide) fun _ => rfl
  | @whole _ value small =>
    intro level fuel depth front rest left found cut some' alien read
    rw [text, toList_toString_natCast] at cut
    exact alien.stops_of_number_cut (number?_toDigits small) cut some' read
  | decimal back =>
    intro level fuel depth front rest left found cut some' alien read
    exact alien.stops_of_number_cut (number?_of_readsBack back) cut some' read
  | text value =>
    intro level fuel depth front rest left found cut some' alien read
    rcases cut_cons cut with rfl | ⟨behind, rfl, inside⟩
    · exact absurd rfl some'
    · obtain ⟨name, quoted⟩ := exists_readQuoted_of_readValue read
      exact alien.stops_of_readQuoted_cut inside quoted
  | list all ih =>
    intro level fuel depth front rest left found cut some' alien read
    rw [alien.readValue_list ih all cut some'] at read
    cases read
  | table all ih =>
    intro level fuel depth front rest left found cut some' alien read
    rw [alien.readValue_table ih all cut some'] at read
    cases read

theorem Alien.readValue_cut (alien : Alien rest) {members : List (String × Data)} {deep : Nat}
    (carried : Carried deep (.table members))
    (cut : Cut front (text .compact level (.table members))) (some' : front ≠ []) :
    readValue fuel depth (front ++ rest) = none := by
  cases carried with
  | table all =>
    exact alien.readValue_table (fun member listed => severed_of_carried (all member listed)) all cut
      some'

/-- The start of a table goes on with nothing that has been begun, whatever is left of the table and
whatever comes behind. -/
theorem Alien.append (alien : Alien rest) {members : List (String × Data)} {deep : Nat}
    (carried : Carried deep (.table members)) {c : Char} {more : List Char}
    (start : text .compact level (.table members) = '{' :: '"' :: c :: more)
    (apart : follows c = false) (part : front <+: text .compact level (.table members))
    (some' : front ≠ []) : Alien (front ++ rest) where
  start := by
    obtain ⟨d, behind, rfl⟩ := List.exists_cons_of_ne_nil some'
    rw [start] at part
    obtain rfl : d = '{' := (List.cons_prefix_cons.mp part).1
    exact Or.inr ⟨behind ++ rest, rfl⟩
  value read := by
    obtain ⟨missing, whole⟩ := part
    by_cases full : missing = []
    · rw [full, List.append_nil] at whole
      rw [whole] at read
      obtain ⟨_, rfl⟩ := eq_of_readValue_text carried (alien.stops rfl) read
      exact alien.stops rfl
    · rw [alien.readValue_cut carried ⟨missing, full, whole⟩ some'] at read
      cases read
  quoted read := by
    obtain ⟨d, behind, rfl⟩ := List.exists_cons_of_ne_nil some'
    rw [start] at part
    obtain ⟨rfl, inBrace⟩ := List.cons_prefix_cons.mp part
    rw [List.cons_append, readQuoted_plain (by decide) (by decide) (by decide)] at read
    cases behind with
    | nil => exact alien.quoted read
    | cons d behind =>
      obtain ⟨rfl, inQuotes⟩ := List.cons_prefix_cons.mp inBrace
      rw [List.cons_append, readQuoted_quote] at read
      cases read
      cases behind with
      | nil => exact alien.stops rfl
      | cons d behind =>
        obtain ⟨rfl, _⟩ := List.cons_prefix_cons.mp inQuotes
        exact stops_cons apart

end SnippetAudit.Json
