import SnippetAudit.Proofs.Pattern.Takes

/-!
Occurrences as a walk along a text. How far a pattern reaches from a place depends on the characters
behind it and on whether a word character stands before it, so the occurrences in a text are met by
going through its characters one by one.
-/

namespace SnippetAudit

open Text

namespace Pattern

/-- A text ends in a word character; where it is empty, what stands before it decides. -/
def endsInWord (afterWord : Bool) (used : List Char) : Bool :=
  used.getLast?.elim afterWord isWord

/-- How many characters a pattern may take from a text, the preferred number first. -/
def lengths : Pattern → Bool → List Char → List Nat
  | nothing, _, _ => [0]
  | edge, afterWord, rest => if afterWord != rest.head?.any isWord then [0] else []
  | one accepts, _, rest => if rest.head?.any accepts then [1] else []
  | many accepts, _, rest => (List.range ((rest.takeWhile accepts).length + 1)).reverse
  | few accepts, _, rest => List.range ((rest.takeWhile accepts).length + 1)
  | word same spellings, _, rest => (spellings.filter (spells same · rest)).map List.length
  | next first second, afterWord, rest =>
    (first.lengths afterWord rest).flatMap fun count =>
      (second.lengths (endsInWord afterWord (rest.take count)) (rest.drop count)).map (count + ·)
  | either first second, afterWord, rest =>
    first.lengths afterWord rest ++ second.lengths afterWord rest

theorem any_after_before (place : Place) (count : Nat) :
    (place.after count).before.any isWord =
      endsInWord (place.before.any isWord) (place.rest.take count) := by
  rw [Place.after, endsInWord]
  cases (place.rest.take count).getLast? <;> rfl

theorem any_before_after_one {place : Place} {c : Char} {rest : List Char}
    (same : place.rest = c :: rest) : (place.after 1).before.any isWord = isWord c := by
  rw [any_after_before, same]
  rfl

theorem ends_eq_map_after (pattern : Pattern) (place : Place) :
    pattern.ends place =
      (pattern.lengths (place.before.any isWord) place.rest).map place.after := by
  induction pattern generalizing place with
  | nothing => simp [ends, lengths]
  | edge =>
    rw [ends, lengths, Place.isEdge]
    split <;> simp
  | one accepts =>
    rw [ends, lengths, Place.admits]
    split <;> rfl
  | many accepts => rfl
  | few accepts => rfl
  | word same spellings => simp [ends, lengths]
  | next first second ihFirst ihSecond =>
    rw [ends, lengths, ihFirst, List.flatMap_map, List.map_flatMap]
    congr 1
    funext count
    rw [ihSecond, any_after_before, List.map_map, Place.after_rest]
    refine List.map_congr_left fun more _ => ?_
    exact Place.after_after place count more
  | either first second ihFirst ihSecond => rw [ends, lengths, ihFirst, ihSecond, List.map_append]

theorem mem_lengths_iff {pattern : Pattern} {place : Place} {count : Nat} :
    count ∈ pattern.lengths (place.before.any isWord) place.rest ↔
      count ≤ place.rest.length ∧ pattern.Takes place (place.rest.take count) := by
  have listed : place.after count ∈ pattern.ends place ↔
      count ∈ pattern.lengths (place.before.any isWord) place.rest := by
    rw [ends_eq_map_after, List.mem_map]
    simp only [after_inj, exists_eq_right]
  rw [← listed]
  constructor
  · intro reached
    obtain ⟨other, within, same⟩ := exists_after_of_mem_ends reached
    rw [after_inj] at same
    subst same
    refine ⟨within, List.take_prefix _ _, ?_⟩
    rwa [List.length_take_of_le within]
  · rintro ⟨within, _, reached⟩
    rwa [List.length_take_of_le within] at reached

theorem exists_place (afterWord : Bool) (rest : List Char) :
    ∃ place : Place, place.before.any isWord = afterWord ∧ place.rest = rest :=
  ⟨⟨0, if afterWord then some 'a' else none, rest⟩, by cases afterWord <;> rfl, rfl⟩

theorem le_length_of_mem_lengths {pattern : Pattern} {afterWord : Bool} {rest : List Char}
    {count : Nat} (member : count ∈ pattern.lengths afterWord rest) : count ≤ rest.length := by
  obtain ⟨place, rfl, rfl⟩ := exists_place afterWord rest
  exact (mem_lengths_iff.mp member).1

/-- Where a text begins with only one stretch of a language, that one is preferred. -/
theorem Describes.head?_lengths {pattern : Pattern} {language : List Char → Prop}
    {rest used : List Char} (described : pattern.Describes language) (afterWord : Bool)
    (inside : used <+: rest) (spoken : language used)
    (only : ∀ other, other <+: rest → language other → other = used) :
    (pattern.lengths afterWord rest).head? = some used.length := by
  obtain ⟨place, rfl, rfl⟩ := exists_place afterWord rest
  have taken : pattern.Takes place used := (described place used).mpr ⟨inside, spoken⟩
  have listed : used.length ∈ pattern.lengths (place.before.any isWord) place.rest := by
    refine mem_lengths_iff.mpr ⟨inside.length_le, ?_⟩
    rwa [← List.prefix_iff_eq_take.mp inside]
  obtain ⟨first, others, cut⟩ := List.exists_cons_of_ne_nil (List.ne_nil_of_mem listed)
  have preferred : first ∈ pattern.lengths (place.before.any isWord) place.rest := by
    rw [cut]
    exact List.mem_cons_self
  obtain ⟨within, also⟩ := mem_lengths_iff.mp preferred
  obtain ⟨begins, spokenAlso⟩ := (described place _).mp also
  rw [cut, List.head?_cons, ← only _ begins spokenAlso, List.length_take_of_le within]

theorem Describes.lengths_eq_nil {pattern : Pattern} {language : List Char → Prop}
    {rest : List Char} (described : pattern.Describes language) (afterWord : Bool)
    (never : ∀ used, used <+: rest → ¬language used) : pattern.lengths afterWord rest = [] := by
  obtain ⟨place, rfl, rfl⟩ := exists_place afterWord rest
  refine List.eq_nil_iff_forall_not_mem.mpr fun count listed => ?_
  obtain ⟨inside, spoken⟩ := (described place _).mp (mem_lengths_iff.mp listed).2
  exact never _ inside spoken

/-- The indices at which the occurrences start. `index` is that of the first character, and `skip`
says how many characters belong to an occurrence that has been met already. -/
def startsFrom (pattern : Pattern) (index : Nat) (afterWord : Bool) (skip : Nat) :
    List Char → List Nat
  | [] => if skip = 0 ∧ pattern.lengths afterWord [] ≠ [] then [index] else []
  | c :: rest =>
    if skip = 0 then
      match (pattern.lengths afterWord (c :: rest)).head? with
      | some count => index :: startsFrom pattern (index + 1) (isWord c) (count - 1) rest
      | none => startsFrom pattern (index + 1) (isWord c) 0 rest
    else startsFrom pattern (index + 1) (isWord c) (skip - 1) rest

def starts (pattern : Pattern) (text : List Char) : List Nat :=
  pattern.startsFrom 0 false 0 text

theorem collect_found (resume : Nat) (found : List Occurrence)
    (coming : List (Place × Option Place)) :
    collect resume found coming = found.reverse ++ collect resume [] coming := by
  induction coming generalizing resume found with
  | nil => simp [collect]
  | cons site coming ih =>
    obtain ⟨start, _ | stop⟩ := site
    · simp only [collect]
      exact ih resume found
    · simp only [collect]
      split
      · rw [ih _ (_ :: found), ih _ [_]]
        simp
      · exact ih resume found

def site (pattern : Pattern) (place : Place) : Place × Option Place :=
  (place, (pattern.ends place).head?)

theorem site_eq (pattern : Pattern) (place : Place) :
    pattern.site place =
      (place, (pattern.lengths (place.before.any isWord) place.rest).head?.map place.after) := by
  rw [site, ends_eq_map_after, List.head?_map]

theorem collect_along (pattern : Pattern) (place : Place) (resume : Nat) :
    (collect resume [] (place.along.map pattern.site)).map (·.start.index) =
      pattern.startsFrom place.index (place.before.any isWord) (resume - place.index)
        place.rest := by
  generalize same : place.rest = rest
  induction rest generalizing place resume with
  | nil =>
    rw [Place.along_eq_cons, if_pos same, List.map_singleton, site_eq, same, startsFrom]
    cases pattern.lengths (place.before.any isWord) [] with
    | nil => simp [collect]
    | cons count counts =>
      simp only [List.head?_cons, Option.map_some, collect]
      by_cases free : resume ≤ place.index
      · simp [free, Nat.sub_eq_zero_of_le free]
      · simp [free, Nat.sub_eq_zero_iff_le]
  | cons c rest ih =>
    have later (resume : Nat) := ih (place.after 1) resume (Place.after_one_rest same)
    simp only [any_before_after_one same, Place.after_index] at later
    rw [Place.along_of_cons same, List.map_cons, site_eq, same, startsFrom]
    cases (pattern.lengths (place.before.any isWord) (c :: rest)).head? with
    | none =>
      have next : resume - (place.index + 1) = resume - place.index - 1 := by omega
      simp only [Option.map_none, collect]
      rw [later, next]
      split
      · rename_i free
        rw [free]
      · rfl
    | some count =>
      simp only [Option.map_some, collect]
      by_cases free : resume ≤ place.index
      · have next : place.index + count - (place.index + 1) = count - 1 := by omega
        rw [if_pos free, if_pos (Nat.sub_eq_zero_of_le free), collect_found, List.map_append,
          Place.after_index, later, next]
        rfl
      · have next : resume - (place.index + 1) = resume - place.index - 1 := by omega
        rw [if_neg free, if_neg (by omega), later, next]

/-- The occurrences of a pattern start where the walk along the text meets them. -/
theorem map_start_occurrences (pattern : Pattern) (text : List Char) :
    (pattern.occurrences text).map (·.start.index) = pattern.starts text := by
  rw [occurrences, stops_eq]
  exact pattern.collect_along (Place.origin text) 0

theorem count_eq_length_starts (pattern : Pattern) (text : List Char) :
    pattern.count text = (pattern.starts text).length := by
  rw [count, ← map_start_occurrences, List.length_map]

/-- A site with a match is met by the walk, or lies within a match that is met before it. -/
theorem collect_eq_nil_iff {coming : List (Place × Option Place)} :
    collect 0 [] coming = [] ↔ ∀ site ∈ coming, site.2 = none := by
  induction coming with
  | nil => simp [collect]
  | cons site coming ih =>
    obtain ⟨start, _ | stop⟩ := site
    · simp [collect, ih]
    · rw [collect]
      simp only [Nat.zero_le, if_true]
      rw [collect_found]
      simp

theorem occursIn_iff_starts {pattern : Pattern} {text : List Char} :
    pattern.occursIn text = true ↔ pattern.starts text ≠ [] := by
  rw [← map_start_occurrences, Ne, List.map_eq_nil_iff, occurrences, collect_eq_nil_iff, occursIn,
    List.any_eq_true]
  simp [Option.isSome_iff_ne_none]

theorem le_of_mem_startsFrom {pattern : Pattern} {index skip : Nat} {afterWord : Bool}
    {text : List Char} {start : Nat}
    (member : start ∈ pattern.startsFrom index afterWord skip text) : index ≤ start := by
  induction text generalizing index skip afterWord with
  | nil =>
    rw [startsFrom, List.mem_ite_nil_right, List.mem_singleton] at member
    exact Nat.le_of_eq member.2.symm
  | cons c text ih =>
    rw [startsFrom] at member
    split at member
    · split at member
      · rcases List.mem_cons.mp member with rfl | later
        · exact Nat.le_refl _
        · exact Nat.le_of_succ_le (ih later)
      · exact Nat.le_of_succ_le (ih member)
    · exact Nat.le_of_succ_le (ih member)

/-- A pattern that takes at least a character starts nowhere behind the last one. -/
theorem lt_of_mem_startsFrom {pattern : Pattern} {index skip : Nat} {afterWord : Bool}
    {text : List Char} {start : Nat} (never : ∀ afterWord, pattern.lengths afterWord [] = [])
    (member : start ∈ pattern.startsFrom index afterWord skip text) :
    start < index + text.length := by
  induction text generalizing index skip afterWord with
  | nil =>
    rw [startsFrom, never, List.mem_ite_nil_right] at member
    exact absurd rfl member.1.2
  | cons c text ih =>
    rw [List.length_cons]
    rw [startsFrom] at member
    split at member
    · split at member
      · rcases List.mem_cons.mp member with rfl | later
        · omega
        · have bound := ih later
          omega
      · have bound := ih member
        omega
    · have bound := ih member
      omega

theorem startsFrom_pairwise (pattern : Pattern) (index skip : Nat) (afterWord : Bool)
    (text : List Char) : (pattern.startsFrom index afterWord skip text).Pairwise (· < ·) := by
  induction text generalizing index skip afterWord with
  | nil =>
    rw [startsFrom]
    split
    · exact List.pairwise_singleton _ _
    · exact .nil
  | cons c text ih =>
    rw [startsFrom]
    split
    · split
      · refine List.pairwise_cons.mpr ⟨fun start member => ?_, ih _ _ _⟩
        exact le_of_mem_startsFrom member
      · exact ih _ _ _
    · exact ih _ _ _

end Pattern

end SnippetAudit
