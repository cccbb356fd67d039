import SnippetAudit.Proofs.Pattern.Tally

/-!
Whether a pattern is met in a text at all. It is met if and only if it takes some stretch of the
text, so neither the preferred match nor the matches that hide others play a part here.
-/

namespace SnippetAudit

open Text

namespace Place

variable {place : Place} {used : List Char}

/-- The place between what comes before it in a text and what comes behind. -/
def amid (front rest : List Char) : Place :=
  ⟨front.length, front.getLast?, rest⟩

@[simp] theorem amid_before (front rest : List Char) :
    (amid front rest).before = front.getLast? := rfl

@[simp] theorem amid_rest (front rest : List Char) : (amid front rest).rest = rest := rfl

theorem mem_along_origin_iff {text : List Char} :
    place ∈ (origin text).along ↔ ∃ front rest, text = front ++ rest ∧ place = amid front rest := by
  rw [mem_along]
  constructor
  · rintro ⟨count, within, rfl⟩
    have length : (text.take count).length = count := List.length_take_of_le within
    refine ⟨text.take count, text.drop count, (List.take_append_drop count text).symm, ?_⟩
    simp [after, origin, amid, length]
  · rintro ⟨front, rest, rfl, rfl⟩
    exact ⟨front.length, by simp, by simp [after, origin, amid]⟩

theorem after_mem_along {text : List Char} (member : place ∈ (origin text).along) {count : Nat}
    (within : count ≤ place.rest.length) : place.after count ∈ (origin text).along := by
  obtain ⟨start, _, rfl⟩ := mem_along.mp member
  rw [after_rest, List.length_drop] at within
  exact mem_along.mpr ⟨start + count, by omega, after_after _ start count⟩

/-- A stretch that begins at a place of a text, with what comes before and behind it. -/
theorem exists_around {text : List Char} (member : place ∈ (origin text).along)
    (inside : used <+: place.rest) :
    ∃ front back, text = front ++ used ++ back ∧ front.length = place.index ∧
      front.getLast? = place.before := by
  obtain ⟨front, _, rfl, rfl⟩ := mem_along_origin_iff.mp member
  obtain ⟨back, rfl⟩ := inside
  exact ⟨front, back, (List.append_assoc front used back).symm, rfl, rfl⟩

/-- Where a word character follows, a place is an edge if and only if none comes before it. -/
theorem isEdge_of_word (follows : place.rest.head?.any isWord = true) :
    place.isEdge = !place.before.any isWord := by
  rw [isEdge, follows]
  cases place.before.any isWord <;> rfl

/-- Where a stretch begins with a word character, its beginning is an edge if and only if no word
character comes before it. -/
theorem isEdge_of_beginning (inside : used <+: place.rest) (first : used.head?.any isWord = true) :
    place.isEdge = !place.before.any isWord := by
  obtain ⟨more, rest⟩ := inside
  refine isEdge_of_word ?_
  cases used with
  | nil => cases first
  | cons c used => rw [← rest]; exact first

/-- Behind a stretch its last character decides whether there is an edge, together with the next. -/
theorem isEdge_after (inside : used <+: place.rest) (some' : used ≠ []) :
    (place.after used.length).isEdge =
      (used.getLast?.any isWord != (place.rest.drop used.length).head?.any isWord) := by
  have taken : place.rest.take used.length = used := (List.prefix_iff_eq_take.mp inside).symm
  rw [isEdge, Pattern.any_after_before, taken, Pattern.endsInWord,
    List.getLast?_eq_some_getLast some']
  rfl

/-- A stretch that begins with a word character lies between edges if none comes before it, and one
comes behind it just where it does not end with one. -/
theorem edges_iff {last : Bool} (inside : used <+: place.rest)
    (first : used.head?.any isWord = true) (ending : used.getLast?.any isWord = last) :
    place.isEdge = true ∧ (place.after used.length).isEdge = true ↔
      place.before.any isWord = false ∧ (place.rest.drop used.length).head?.any isWord = !last := by
  have some' : used ≠ [] := by
    rintro rfl
    cases first
  rw [isEdge_of_beginning inside first, isEdge_after inside some', ending, Bool.not_eq_true']
  cases last <;> simp

end Place

namespace Pattern

variable {pattern first second : Pattern} {place : Place} {used text : List Char}

/-- The pattern matches at a place. -/
def startsAt (pattern : Pattern) (place : Place) : Bool :=
  (pattern.ends place).head?.isSome

theorem startsAt_iff : pattern.startsAt place = true ↔ ∃ used, pattern.Takes place used := by
  rw [startsAt, Option.isSome_iff_ne_none, Ne, head?_ends_eq_none_iff, Classical.not_forall_not]

theorem occursIn_eq_any (pattern : Pattern) (text : List Char) :
    pattern.occursIn text = (Place.origin text).along.any pattern.startsAt := by
  rw [occursIn, stops_eq, List.any_map]
  rfl

theorem occursIn_iff_place :
    pattern.occursIn text = true ↔
      ∃ place ∈ (Place.origin text).along, ∃ used, pattern.Takes place used := by
  simp only [occursIn_eq_any, List.any_eq_true, startsAt_iff]

/-- A pattern is met in a text if and only if it takes a stretch of it. -/
theorem occursIn_iff :
    pattern.occursIn text = true ↔ ∃ front used back, text = front ++ used ++ back ∧
      pattern.Takes (Place.amid front (used ++ back)) used := by
  rw [occursIn_iff_place]
  constructor
  · rintro ⟨_, member, used, taken⟩
    obtain ⟨front, _, rfl, rfl⟩ := Place.mem_along_origin_iff.mp member
    obtain ⟨back, rfl⟩ := taken.1
    exact ⟨front, used, back, (List.append_assoc front used back).symm, taken⟩
  · rintro ⟨front, used, back, rfl, taken⟩
    exact ⟨_, Place.mem_along_origin_iff.mpr ⟨front, used ++ back, List.append_assoc _ _ _, rfl⟩,
      used, taken⟩

theorem one_le_count_iff : 1 ≤ pattern.count text ↔ pattern.occursIn text = true := by
  rw [occursIn_iff_starts, count_eq_length_starts, Nat.one_le_iff_ne_zero, Ne,
    List.length_eq_zero_iff]

theorem occursIn_either_iff :
    (either first second).occursIn text = true ↔
      first.occursIn text = true ∨ second.occursIn text = true := by
  simp only [occursIn_iff, takes_either, and_or_left, exists_or]

/-- A pattern is met wherever one is met that takes nothing unless the first takes something. -/
theorem occursIn_of_takes (reaches : ∀ place used, first.Takes place used →
      ∃ other, second.Takes place other) (occurs : first.occursIn text = true) :
    second.occursIn text = true := by
  rw [occursIn_iff_place] at occurs ⊢
  obtain ⟨place, member, used, taken⟩ := occurs
  exact ⟨place, member, reaches place used taken⟩

end Pattern

end SnippetAudit
