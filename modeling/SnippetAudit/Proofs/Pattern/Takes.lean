import SnippetAudit.Proofs.Pattern.Ends

/-!
The stretches of a text that a pattern takes. Which of them is preferred plays no part here, so each
kind of pattern has one description of its stretches, and a pattern matches at a place if and only
if it takes some stretch from there.
-/

namespace SnippetAudit

open Text

namespace Pattern

/-- From a place the pattern takes the characters `used`. -/
def Takes (pattern : Pattern) (place : Place) (used : List Char) : Prop :=
  used <+: place.rest ∧ place.after used.length ∈ pattern.ends place

variable {place : Place} {used : List Char}

theorem after_inj {first second : Nat} :
    place.after first = place.after second ↔ first = second := by
  constructor
  · intro same
    have index := congrArg Place.index same
    simp only [Place.after_index] at index
    omega
  · rintro rfl
    rfl

theorem exists_takes_of_mem_ends {pattern : Pattern} {stop : Place}
    (reached : stop ∈ pattern.ends place) :
    ∃ used, pattern.Takes place used ∧ stop = place.after used.length := by
  obtain ⟨count, within, rfl⟩ := exists_after_of_mem_ends reached
  have length : (place.rest.take count).length = count := List.length_take_of_le within
  refine ⟨place.rest.take count, ⟨List.take_prefix _ _, ?_⟩, ?_⟩ <;> rw [length]
  exact reached

theorem exists_takes_of_head? {pattern : Pattern} {stop : Place}
    (preferred : (pattern.ends place).head? = some stop) :
    ∃ used, pattern.Takes place used ∧ stop = place.after used.length :=
  exists_takes_of_mem_ends (List.mem_of_mem_head? preferred)

/-- A pattern does not match at a place from which it takes nothing. -/
theorem head?_ends_eq_none_iff {pattern : Pattern} :
    (pattern.ends place).head? = none ↔ ∀ used, ¬ pattern.Takes place used := by
  rw [List.head?_eq_none_iff]
  constructor
  · intro empty used taken
    have member := taken.2
    rw [empty] at member
    exact List.not_mem_nil member
  · intro never
    refine List.eq_nil_iff_forall_not_mem.mpr fun stop reached => ?_
    obtain ⟨used, taken, _⟩ := exists_takes_of_mem_ends reached
    exact never used taken

theorem takes_nothing : nothing.Takes place used ↔ used = [] := by
  simp only [Takes, ends, List.mem_singleton]
  constructor
  · rintro ⟨_, here⟩
    rw [← Place.after_zero place, Place.after_after, after_inj] at here
    exact List.length_eq_zero_iff.mp (by omega)
  · rintro rfl
    exact ⟨List.nil_prefix, Place.after_zero place⟩

theorem takes_edge : edge.Takes place used ↔ used = [] ∧ place.isEdge = true := by
  rw [← @takes_nothing place]
  simp only [Takes, ends]
  split <;> simp_all

theorem takes_one {accepts : Char → Bool} :
    (one accepts).Takes place used ↔
      ∃ c, used = [c] ∧ accepts c = true ∧ used <+: place.rest := by
  simp only [Takes, ends, List.mem_ite_nil_right, List.mem_singleton, after_inj]
  constructor
  · rintro ⟨inside, admitted, length⟩
    obtain ⟨c, rfl⟩ := List.length_eq_one_iff.mp length
    obtain ⟨more, rest⟩ := inside
    have accepted : accepts c = true := by simpa [Place.admits, ← rest] using admitted
    exact ⟨c, rfl, accepted, more, rest⟩
  · rintro ⟨c, rfl, accepted, more, rest⟩
    exact ⟨⟨more, rest⟩, by simpa [Place.admits, ← rest] using accepted, rfl⟩

theorem takes_many {accepts : Char → Bool} :
    (many accepts).Takes place used ↔
      used <+: place.rest ∧ ∀ c ∈ used, accepts c = true := by
  simp only [Takes, ends, List.mem_map, List.mem_reverse, List.mem_range, after_inj,
    exists_eq_right]
  refine and_congr_right fun inside => ?_
  constructor
  · intro short c member
    have run : used <+: place.rest.takeWhile accepts :=
      List.prefix_of_prefix_length_le inside (List.takeWhile_prefix accepts) (by omega)
    exact List.all_eq_true.mp List.all_takeWhile c (run.subset member)
  · intro all
    obtain ⟨more, rest⟩ := inside
    rw [← rest, List.takeWhile_append_of_pos all, List.length_append]
    omega

theorem spells_beq {spelling text : List Char} :
    spells (· == ·) spelling text = true ↔ spelling <+: text := by
  induction spelling generalizing text with
  | nil => simp [spells]
  | cons c spelling ih =>
    cases text with
    | nil => simp [spells]
    | cons d text => simp [spells, ih, List.cons_prefix_cons]

theorem takes_exactly {spellings : List String} :
    (exactly spellings).Takes place used ↔
      used <+: place.rest ∧ ∃ spelling ∈ spellings, used = spelling.toList := by
  simp only [exactly, Takes, ends, List.mem_map, List.mem_filter, spells_beq, after_inj]
  refine and_congr_right fun inside => ?_
  constructor
  · rintro ⟨_, ⟨⟨spelling, member, rfl⟩, spelt⟩, length⟩
    refine ⟨spelling, member, ?_⟩
    have equal := List.prefix_of_prefix_length_le inside spelt (by omega)
    exact equal.eq_of_length length.symm
  · rintro ⟨spelling, member, rfl⟩
    exact ⟨spelling.toList, ⟨⟨spelling, member, rfl⟩, inside⟩, rfl⟩

theorem takes_next {first second : Pattern} :
    (next first second).Takes place used ↔
      ∃ front back, used = front ++ back ∧ first.Takes place front ∧
        second.Takes (place.after front.length) back := by
  constructor
  · rintro ⟨inside, reached⟩
    obtain ⟨middle, toMiddle, toStop⟩ := List.mem_flatMap.mp reached
    obtain ⟨front, frontTaken, rfl⟩ := exists_takes_of_mem_ends toMiddle
    obtain ⟨back, backTaken, stop⟩ := exists_takes_of_mem_ends toStop
    refine ⟨front, back, ?_, frontTaken, backTaken⟩
    rw [Place.after_after, after_inj] at stop
    obtain ⟨more, rest⟩ := frontTaken.1
    have backInside := backTaken.1
    rw [Place.after_rest, ← rest, List.drop_left] at backInside
    have whole : front ++ back <+: place.rest := by
      rw [← rest]
      exact (List.prefix_append_right_inj front).mpr backInside
    have equal := List.prefix_of_prefix_length_le inside whole (by simp [stop])
    exact equal.eq_of_length (by simp [stop])
  · rintro ⟨front, back, rfl, ⟨frontInside, toMiddle⟩, backInside, toStop⟩
    obtain ⟨more, rest⟩ := frontInside
    rw [Place.after_rest, ← rest, List.drop_left] at backInside
    refine ⟨?_, List.mem_flatMap.mpr ⟨_, toMiddle, ?_⟩⟩
    · rw [← rest]
      exact (List.prefix_append_right_inj front).mpr backInside
    · rw [List.length_append, ← Place.after_after]
      exact toStop

theorem takes_edge_next :
    (next edge second).Takes place used ↔ place.isEdge = true ∧ second.Takes place used := by
  rw [takes_next]
  constructor
  · rintro ⟨_, back, rfl, atEdge, taken⟩
    obtain ⟨rfl, edge⟩ := takes_edge.mp atEdge
    rw [List.length_nil, Place.after_zero] at taken
    exact ⟨edge, taken⟩
  · rintro ⟨edge, taken⟩
    refine ⟨[], used, rfl, takes_edge.mpr ⟨rfl, edge⟩, ?_⟩
    rwa [List.length_nil, Place.after_zero]

theorem takes_sequence_cons {first : Pattern} {others : List Pattern} :
    (sequence (first :: others)).Takes place used ↔
      ∃ front back, used = front ++ back ∧ first.Takes place front ∧
        (sequence others).Takes (place.after front.length) back := by
  cases others with
  | nil =>
    simp only [sequence, takes_nothing]
    constructor
    · exact fun taken => ⟨used, [], (List.append_nil used).symm, taken, rfl⟩
    · rintro ⟨front, _, rfl, taken, rfl⟩
      rwa [List.append_nil]
  | cons second others => exact takes_next

/-- A sequence takes what its beginning takes and behind that what the rest of it takes. -/
theorem takes_sequence_append (patterns : List Pattern) {others : List Pattern} :
    (sequence (patterns ++ others)).Takes place used ↔
      ∃ front back, used = front ++ back ∧ (sequence patterns).Takes place front ∧
        (sequence others).Takes (place.after front.length) back := by
  induction patterns generalizing place used with
  | nil =>
    simp only [sequence, List.nil_append, takes_nothing]
    constructor
    · exact fun taken => ⟨[], used, rfl, rfl, by rwa [List.length_nil, Place.after_zero]⟩
    · rintro ⟨_, back, rfl, rfl, taken⟩
      rwa [List.length_nil, Place.after_zero] at taken
  | cons first patterns ih =>
    simp only [List.cons_append, takes_sequence_cons, ih]
    constructor
    · rintro ⟨start, _, rfl, inFirst, front, back, rfl, inFront, inBack⟩
      refine ⟨start ++ front, back, (List.append_assoc start front back).symm,
        ⟨start, front, rfl, inFirst, inFront⟩, ?_⟩
      rwa [List.length_append, ← Place.after_after]
    · rintro ⟨_, back, rfl, ⟨start, front, rfl, inFirst, inFront⟩, inBack⟩
      refine ⟨start, front ++ back, List.append_assoc start front back, inFirst, front, back, rfl,
        inFront, ?_⟩
      rwa [Place.after_after, ← List.length_append]

theorem takes_either {first second : Pattern} :
    (either first second).Takes place used ↔
      first.Takes place used ∨ second.Takes place used := by
  simp only [Takes, ends, List.mem_append, and_or_left]

theorem takes_perhaps {pattern : Pattern} :
    (perhaps pattern).Takes place used ↔ pattern.Takes place used ∨ used = [] := by
  rw [perhaps, takes_either, takes_nothing]

theorem takes_char {c : Char} :
    (char c).Takes place used ↔ used = [c] ∧ used <+: place.rest := by
  simp only [char, takes_one, beq_iff_eq]
  constructor
  · rintro ⟨d, rfl, rfl, inside⟩
    exact ⟨rfl, inside⟩
  · rintro ⟨rfl, inside⟩
    exact ⟨c, rfl, rfl, inside⟩

/-- The pattern takes every stretch of a language, whatever stands before it, and nothing else. -/
def Describes (pattern : Pattern) (language : List Char → Prop) : Prop :=
  ∀ place used, pattern.Takes place used ↔ used <+: place.rest ∧ language used

theorem describes_char (c : Char) : (char c).Describes (· = [c]) := by
  intro place used
  rw [takes_char, and_comm]

theorem describes_one (accepts : Char → Bool) :
    (one accepts).Describes fun used => ∃ c, used = [c] ∧ accepts c = true := by
  intro place used
  rw [takes_one]
  constructor
  · rintro ⟨c, rfl, accepted, inside⟩
    exact ⟨inside, c, rfl, accepted⟩
  · rintro ⟨inside, c, rfl, accepted⟩
    exact ⟨c, rfl, accepted, inside⟩

theorem describes_many (accepts : Char → Bool) :
    (many accepts).Describes fun used => ∀ c ∈ used, accepts c = true :=
  fun _ _ => takes_many

theorem describes_exactly (spellings : List String) :
    (exactly spellings).Describes fun used => ∃ spelling ∈ spellings, used = spelling.toList :=
  fun _ _ => takes_exactly

theorem describes_nothing : nothing.Describes (· = []) := by
  intro place used
  rw [takes_nothing]
  constructor
  · rintro rfl
    exact ⟨List.nil_prefix, rfl⟩
  · exact And.right

/-- Behind what the first part takes, the second part takes from the characters left. -/
theorem takes_next_describes {first second : Pattern} {language : List Char → Prop}
    (described : second.Describes language) :
    (next first second).Takes place used ↔
      used <+: place.rest ∧
        ∃ front back, used = front ++ back ∧ first.Takes place front ∧ language back := by
  rw [takes_next]
  constructor
  · rintro ⟨front, back, rfl, frontTaken, backTaken⟩
    obtain ⟨backInside, spoken⟩ := (described _ _).mp backTaken
    refine ⟨?_, front, back, rfl, frontTaken, spoken⟩
    obtain ⟨more, rest⟩ := frontTaken.1
    rw [Place.after_rest, ← rest, List.drop_left] at backInside
    rw [← rest]
    exact (List.prefix_append_right_inj front).mpr backInside
  · rintro ⟨inside, front, back, rfl, frontTaken, spoken⟩
    refine ⟨front, back, rfl, frontTaken, (described _ _).mpr ⟨?_, spoken⟩⟩
    obtain ⟨more, rest⟩ := inside
    rw [Place.after_rest, ← rest, List.append_assoc, List.drop_left]
    exact List.prefix_append back more

theorem Describes.next {first second : Pattern} {firstLanguage secondLanguage : List Char → Prop}
    (firstDescribed : first.Describes firstLanguage)
    (secondDescribed : second.Describes secondLanguage) :
    (next first second).Describes fun used =>
      ∃ front back, used = front ++ back ∧ firstLanguage front ∧ secondLanguage back := by
  intro place used
  rw [takes_next_describes secondDescribed]
  constructor
  · rintro ⟨inside, front, back, rfl, frontTaken, spoken⟩
    exact ⟨inside, front, back, rfl, ((firstDescribed _ _).mp frontTaken).2, spoken⟩
  · rintro ⟨inside, front, back, rfl, frontSpoken, spoken⟩
    have frontInside : front <+: place.rest := (List.prefix_append front back).trans inside
    exact ⟨inside, front, back, rfl, (firstDescribed _ _).mpr ⟨frontInside, frontSpoken⟩, spoken⟩

theorem Describes.either {first second : Pattern}
    {firstLanguage secondLanguage : List Char → Prop}
    (firstDescribed : first.Describes firstLanguage)
    (secondDescribed : second.Describes secondLanguage) :
    (either first second).Describes fun used => firstLanguage used ∨ secondLanguage used := by
  intro place used
  rw [takes_either, firstDescribed, secondDescribed, and_or_left]

end Pattern

end SnippetAudit
