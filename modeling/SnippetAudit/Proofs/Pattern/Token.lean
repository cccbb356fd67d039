import SnippetAudit.Proofs.Pattern.Tally
import SnippetAudit.Proofs.Text.Trim

/-!
Words met as places. A word of a text can be told by the place at which it begins, so words are
counted by places, and what a pattern takes from one edge of a word to another is a word or has
characters that belong to none.
-/

namespace SnippetAudit

open Text

namespace Place

variable {place : Place} {used : List Char}

/-- A word that is accepted begins at a place. -/
def holdsWord (accepts : List Char → Bool) (place : Place) : Bool :=
  !place.before.any isWord && place.rest.head?.any isWord && accepts (place.rest.takeWhile isWord)

/-- Between two edges a text has word characters only. -/
structure HasWord (place : Place) (used : List Char) : Prop where
  inside : used <+: place.rest
  word : ∀ c ∈ used, isWord c = true
  some' : used ≠ []
  opens : place.isEdge = true
  closes : (place.after used.length).isEdge = true

/-- The character before a place further on is the last one on the way there. -/
theorem before_after {count : Nat} (inside : used <+: place.rest) (some' : 0 < count)
    (within : count ≤ used.length) : ∃ c ∈ used, (place.after count).before = some c := by
  have taken : place.rest.take count = used.take count := by
    obtain ⟨more, rest⟩ := inside
    rw [← rest, List.take_append_of_le_length within]
  have full : used.take count ≠ [] := by
    rw [Ne, List.take_eq_nil_iff, not_or]
    exact ⟨by omega, List.length_pos_iff.mp (by omega)⟩
  refine ⟨_, List.mem_of_mem_take (List.getLast_mem full), ?_⟩
  rw [after, taken, List.getLast?_eq_some_getLast full, Option.some_or]

theorem head?_after {count : Nat} (inside : used <+: place.rest) (within : count < used.length) :
    (place.after count).rest.head? = some used[count] := by
  obtain ⟨more, rest⟩ := inside
  rw [after_rest, ← rest, List.head?_drop, List.getElem?_append_left within,
    List.getElem?_eq_getElem within]

namespace HasWord

theorem head?_any (has : place.HasWord used) {count : Nat} (within : count < used.length) :
    (place.after count).rest.head?.any isWord = true := by
  rw [head?_after has.inside within, Option.any_some]
  exact has.word _ (List.getElem_mem within)

theorem before_any (has : place.HasWord used) {count : Nat} (some' : 0 < count)
    (within : count ≤ used.length) : (place.after count).before.any isWord = true := by
  obtain ⟨c, member, before⟩ := before_after has.inside some' within
  rw [before, Option.any_some]
  exact has.word c member

/-- Nothing joins on to the word at its beginning, and it is a longest run. -/
theorem before_and_run (has : place.HasWord used) :
    place.before.any isWord = false ∧ place.rest.takeWhile isWord = used := by
  have length := List.length_pos_iff.mpr has.some'
  have opens := has.opens
  have closes := has.closes
  have first := has.head?_any length
  have last := has.before_any length (Nat.le_refl _)
  rw [after_zero] at first
  rw [isEdge, first] at opens
  rw [isEdge, last] at closes
  refine ⟨by simpa using opens, ?_⟩
  obtain ⟨more, rest⟩ := has.inside
  rw [after_rest, ← rest, List.drop_left] at closes
  have apart : Stops isWord more := by
    intro c here
    rw [Option.mem_def.mp here] at closes
    simpa using closes
  have none : more.takeWhile isWord = [] := @takeWhile_append_of_stops isWord [] more apart
  rw [← rest, List.takeWhile_append_of_pos has.word, none, List.append_nil]

/-- A word begins at the first of its places and at no other. -/
theorem holdsWord_after (has : place.HasWord used) (accepts : List Char → Bool) {count : Nat}
    (within : count < used.length) :
    (place.after count).holdsWord accepts = (count == 0 && accepts used) := by
  rcases Nat.eq_zero_or_pos count with rfl | some'
  · obtain ⟨before, run⟩ := has.before_and_run
    have first := has.head?_any within
    rw [after_zero] at first ⊢
    rw [holdsWord, before, first, run]
    rfl
  · have later : (count == 0) = false := beq_false_of_ne (Nat.ne_of_gt some')
    rw [holdsWord, has.before_any some' (Nat.le_of_lt within), later]
    rfl

end HasWord

/-- The word that begins at a place is the run of word characters there. -/
theorem hasWord_of_holdsWord {accepts : List Char → Bool}
    (holds : place.holdsWord accepts = true) :
    place.HasWord (place.rest.takeWhile isWord) ∧ accepts (place.rest.takeWhile isWord) = true := by
  rw [holdsWord, Bool.and_eq_true, Bool.and_eq_true, Bool.not_eq_true'] at holds
  obtain ⟨⟨before, first⟩, accepted⟩ := holds
  have inside : place.rest.takeWhile isWord <+: place.rest := List.takeWhile_prefix isWord
  have word : ∀ c ∈ place.rest.takeWhile isWord, isWord c = true :=
    List.all_eq_true.mp List.all_takeWhile
  have some' : place.rest.takeWhile isWord ≠ [] := by
    cases rest : place.rest with
    | nil =>
      rw [rest] at first
      cases first
    | cons c more =>
      rw [rest] at first
      rw [List.takeWhile_cons_of_pos (by simpa using first)]
      exact List.cons_ne_nil c _
  refine ⟨⟨inside, word, some', ?_, ?_⟩, accepted⟩
  · rw [isEdge, before, first]
    rfl
  · obtain ⟨c, member, last⟩ := before_after inside (List.length_pos_iff.mpr some') (Nat.le_refl _)
    have behind : place.rest.drop (place.rest.takeWhile isWord).length =
        place.rest.dropWhile isWord := by
      have cut : (place.rest.takeWhile isWord ++ place.rest.dropWhile isWord).drop
          (place.rest.takeWhile isWord).length = place.rest.dropWhile isWord := List.drop_left
      rwa [List.takeWhile_append_dropWhile] at cut
    have apart : (place.rest.dropWhile isWord).head?.any isWord = false := by
      have stops := List.head?_dropWhile_not isWord place.rest
      cases left : (place.rest.dropWhile isWord).head? with
      | none => rfl
      | some d =>
        rw [left] at stops
        exact stops
    rw [isEdge, last, Option.any_some, word c member, after_rest, behind, apart]
    rfl

end Place

namespace Text

/-- The first of the pieces between the characters of no word is the run that the text begins with. -/
theorem exists_splitOnP_eq_cons (text : List Char) :
    ∃ rest, text.splitOnP (!isWord ·) = text.takeWhile isWord :: rest := by
  induction text with
  | nil => exact ⟨[], rfl⟩
  | cons c text ih =>
    obtain ⟨rest, cut⟩ := ih
    rw [List.splitOnP_cons_eq_if_modifyHead, cut]
    cases word : isWord c with
    | false => exact ⟨text.takeWhile isWord :: rest, by simp [word]⟩
    | true => exact ⟨rest, by simp [word]⟩

/-- Behind a word character the run that a text begins with belongs to a word begun before. -/
theorem countP_along_holdsWord (accepts : List Char → Bool) (place : Place) :
    place.along.countP (Place.holdsWord accepts) =
      ((place.rest.splitOnP (!isWord ·)).drop (if place.before.any isWord then 1 else 0)).countP
        fun word => accepts word && !word.isEmpty := by
  generalize same : place.rest = rest
  induction rest generalizing place with
  | nil =>
    have none : place.holdsWord accepts = false := by simp [Place.holdsWord, same]
    rw [Place.along_eq_cons, if_pos same, List.countP_cons_of_neg (by simp [none])]
    cases place.before.any isWord <;> simp
  | cons c rest ih =>
    have later := ih (place.after 1) (Place.after_one_rest same)
    obtain ⟨others, cut⟩ := exists_splitOnP_eq_cons rest
    rw [Pattern.any_before_after_one same] at later
    rw [Place.along_of_cons same, List.countP_cons, later, List.splitOnP_cons_eq_if_modifyHead, cut,
      Place.holdsWord, same]
    cases within : isWord c with
    | false => cases place.before.any isWord <;> simp [within]
    | true =>
      cases place.before.any isWord with
      | false => simp [within, List.countP_cons]
      | true => simp [within]

/-- The words that are accepted, counted by the places at which they begin. -/
theorem countP_words (accepts : List Char → Bool) (text : List Char) :
    (words text).countP accepts =
      (Place.origin text).along.countP (Place.holdsWord accepts) := by
  rw [countP_along_holdsWord, words, List.countP_filter]
  rfl

end Text

namespace Pattern

variable {place : Place} {used : List Char}

theorem spells_sameLetter {spelling text : List Char} :
    spells sameLetter spelling text = true ↔
      ∃ used, used <+: text ∧ folded spelling = folded used := by
  induction spelling generalizing text with
  | nil => exact ⟨fun _ => ⟨[], List.nil_prefix, rfl⟩, fun _ => rfl⟩
  | cons c spelling ih =>
    cases text with
    | nil => simp [spells, folded]
    | cons d text =>
      rw [spells, Bool.and_eq_true, ih, sameLetter, beq_iff_eq]
      constructor
      · rintro ⟨same, used, inside, others⟩
        refine ⟨d :: used, List.cons_prefix_cons.mpr ⟨rfl, inside⟩, ?_⟩
        rw [folded, folded, List.map_cons, List.map_cons, same]
        exact congrArg _ others
      · rintro ⟨used, inside, same⟩
        cases used with
        | nil => cases same
        | cons e used =>
          obtain ⟨rfl, within⟩ := List.cons_prefix_cons.mp inside
          obtain ⟨first, others⟩ := List.cons.inj same
          exact ⟨first, used, within, others⟩

theorem takes_anyCase {names : List String} :
    (anyCase names).Takes place used ↔ used <+: place.rest ∧ isAmong names used = true := by
  simp only [anyCase, Takes, ends, List.mem_map, List.mem_filter, spells_sameLetter, after_inj,
    isAmong, List.any_eq_true, beq_iff_eq]
  refine and_congr_right fun inside => ?_
  constructor
  · rintro ⟨_, ⟨⟨name, member, rfl⟩, other, otherInside, same⟩, length⟩
    have sizes := congrArg List.length same
    simp only [folded, List.length_map] at sizes
    have equal := List.prefix_of_prefix_length_le inside otherInside (by omega)
    exact ⟨name, member, equal.eq_of_length (by omega) ▸ same⟩
  · rintro ⟨name, member, same⟩
    have sizes := congrArg List.length same
    simp only [folded, List.length_map] at sizes
    exact ⟨name.toList, ⟨⟨name, member, rfl⟩, used, inside, same⟩, sizes⟩

/-- Between two edges a pattern takes what it takes and what lies between edges. -/
theorem takes_between_edges {inner : Pattern} :
    (sequence [edge, inner, edge]).Takes place used ↔
      place.isEdge = true ∧ inner.Takes place used ∧ (place.after used.length).isEdge = true := by
  simp only [sequence]
  rw [takes_edge_next, takes_next]
  refine and_congr_right fun _ => ?_
  constructor
  · rintro ⟨middle, _, rfl, inside, last⟩
    obtain ⟨rfl, closes⟩ := takes_edge.mp last
    rw [List.append_nil]
    exact ⟨inside, closes⟩
  · rintro ⟨inside, closes⟩
    exact ⟨used, [], (List.append_nil used).symm, inside, takes_edge.mpr ⟨rfl, closes⟩⟩

/-- Names between edges take what is spelt like one of them and lies between edges. -/
theorem takes_token {names : List String} :
    (sequence [edge, anyCase names, edge]).Takes place used ↔
      used <+: place.rest ∧ isAmong names used = true ∧ place.isEdge = true ∧
        (place.after used.length).isEdge = true := by
  rw [takes_between_edges, takes_anyCase, and_left_comm, and_assoc]

/-- Names between edges are met as often as they are words of the text. -/
theorem count_token {names : List String} (filled : "" ∉ names)
    (plain : ∀ name ∈ names, name.toList.all isWord = true) (text : List Char) :
    (sequence [edge, anyCase names, edge]).count text = (words text).countP (isAmong names) := by
  have holds : (sequence [edge, anyCase names, edge]).HoldsOne
      (Place.holdsWord (isAmong names)) := by
    intro place used taken
    obtain ⟨inside, among, opens, closes⟩ := takes_token.mp taken
    have some' := ne_nil_of_isAmong filled among
    have has : place.HasWord used :=
      ⟨inside, isWord_of_isAmong plain among, some', opens, closes⟩
    refine ⟨0, List.length_pos_iff.mpr some', fun count within => ?_⟩
    rw [has.holdsWord_after _ within, among, Bool.and_true, beq_iff_eq]
  have starts (place : Place) (here : place.holdsWord (isAmong names) = true) :
      ∃ used, (sequence [edge, anyCase names, edge]).Takes place used := by
    obtain ⟨has, among⟩ := Place.hasWord_of_holdsWord here
    exact ⟨_, takes_token.mpr ⟨has.inside, among, has.opens, has.closes⟩⟩
  rw [holds.count_eq starts, countP_words]

end Pattern

end SnippetAudit
