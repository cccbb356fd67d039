import SnippetAudit.Proofs.Pattern.Walk
import SnippetAudit.Proofs.Text.Word

/-!
Matches counted by the places of a text. A match may hide others that begin within it, so the number
of matches is in general not the number of places at which the pattern matches. It is the number of
places of some kind, if each match holds exactly one of them and a match begins at each of them: then
none of them is lost to a match that begins before it.
-/

namespace SnippetAudit

open Text

namespace Pattern

variable {pattern : Pattern} {marked : Place → Bool}

/-- Every match of a pattern holds exactly one place of a kind, wherever it begins. -/
def HoldsOne (pattern : Pattern) (marked : Place → Bool) : Prop :=
  ∀ place used, pattern.Takes place used →
    ∃ here < used.length, ∀ count < used.length, marked (place.after count) = true ↔ count = here

theorem HoldsOne.countP_along (holds : pattern.HoldsOne marked) {place : Place} {used : List Char}
    (taken : pattern.Takes place used) :
    place.along.countP marked = 1 + (place.along.drop used.length).countP marked := by
  obtain ⟨here, within, only⟩ := holds place used taken
  have fits := taken.1.length_le
  have first : (place.along.take used.length).countP marked = 1 := by
    have places : place.along.take used.length = (List.range used.length).map place.after := by
      rw [Place.along, ← List.map_take, List.take_range, Nat.min_eq_left (by omega)]
    have one : (List.range used.length).countP (· == here) = 1 :=
      List.count_range.trans (if_pos within)
    rw [places, List.countP_map, ← one]
    refine List.countP_congr fun count member => ?_
    rw [Function.comp_apply, only count (List.mem_range.mp member), beq_iff_eq]
  rw [← first, ← List.countP_append, List.take_append_drop]

theorem HoldsOne.ne_nil (holds : pattern.HoldsOne marked) {place : Place} {used : List Char}
    (taken : pattern.Takes place used) : used ≠ [] := by
  rintro rfl
  obtain ⟨here, within, -⟩ := holds place [] taken
  exact Nat.not_lt_zero here within

/-- The walk along a text meets as many matches as there are marked places behind what it skips. -/
theorem HoldsOne.length_startsFrom (holds : pattern.HoldsOne marked)
    (starts : ∀ place, marked place = true → ∃ used, pattern.Takes place used) (place : Place)
    (index skip : Nat) :
    (pattern.startsFrom index (place.before.any isWord) skip place.rest).length =
      (place.along.drop skip).countP marked := by
  have unmarked {place : Place} (never : ∀ used, ¬pattern.Takes place used) :
      marked place = false := by
    rw [Bool.eq_false_iff]
    intro here
    obtain ⟨used, taken⟩ := starts place here
    exact never used taken
  generalize same : place.rest = rest
  induction rest generalizing place index skip with
  | nil =>
    have never (used : List Char) : ¬pattern.Takes place used := by
      intro taken
      have inside := taken.1
      rw [same, List.prefix_nil] at inside
      exact holds.ne_nil taken inside
    have none : pattern.lengths (place.before.any isWord) [] = [] := by
      refine List.eq_nil_iff_forall_not_mem.mpr fun count member => ?_
      rw [← same, mem_lengths_iff] at member
      exact never _ member.2
    rw [startsFrom, none, Place.along_eq_cons, if_pos same]
    cases skip <;> simp [unmarked never]
  | cons c rest ih =>
    have later (skip : Nat) := ih (place.after 1) (index + 1) skip (Place.after_one_rest same)
    have along := Place.along_of_cons same
    rw [any_before_after_one same] at later
    rw [startsFrom]
    split
    · rename_i free
      subst free
      split
      · rename_i count preferred
        have member := List.mem_of_mem_head? preferred
        rw [← same, mem_lengths_iff] at member
        have counted := holds.countP_along member.2
        have some' := List.length_pos_iff.mpr (holds.ne_nil member.2)
        rw [List.length_take_of_le member.1] at counted some'
        rw [List.length_cons, later, List.drop_zero, counted, along,
          List.drop_cons (by omega), Nat.add_comm]
      · rename_i none
        have never (used : List Char) : ¬pattern.Takes place used := by
          intro taken
          have member : used.length ∈ pattern.lengths (place.before.any isWord) place.rest := by
            refine mem_lengths_iff.mpr ⟨taken.1.length_le, ?_⟩
            rwa [← List.prefix_iff_eq_take.mp taken.1]
          rw [same, List.head?_eq_none_iff.mp none] at member
          exact List.not_mem_nil member
        rw [later, List.drop_zero, List.drop_zero, along,
          List.countP_cons_of_neg (by simp [unmarked never])]
    · rw [later, along, List.drop_cons (by omega)]

/-- A pattern is met as often as there are marked places, if its matches hold one each and none is
marked at which it does not match. -/
theorem HoldsOne.count_eq (holds : pattern.HoldsOne marked)
    (starts : ∀ place, marked place = true → ∃ used, pattern.Takes place used) (text : List Char) :
    pattern.count text = (Place.origin text).along.countP marked := by
  rw [count_eq_length_starts]
  exact holds.length_startsFrom starts (Place.origin text) 0 0

theorem mem_of_mem_collect {resume : Nat} {sites : List (Place × Option Place)}
    {occurrence : Occurrence} (member : occurrence ∈ collect resume [] sites) :
    (occurrence.start, some occurrence.stop) ∈ sites := by
  induction sites generalizing resume with
  | nil => cases member
  | cons site sites ih =>
    obtain ⟨start, _ | stop⟩ := site
    · exact List.mem_cons_of_mem _ (ih member)
    · rw [collect] at member
      split at member
      · rw [collect_found, List.reverse_singleton, List.singleton_append, List.mem_cons] at member
        rcases member with rfl | later
        · exact List.mem_cons_self
        · exact List.mem_cons_of_mem _ (ih later)
      · exact List.mem_cons_of_mem _ (ih member)

/-- A place at which a pattern matches lies within an occurrence, that from there or one that begins
before it. -/
theorem exists_occurrence_along (some' : ∀ place used, pattern.Takes place used → used ≠ [])
    (place : Place) {resume count : Nat} {used : List Char} (within : count ≤ place.rest.length)
    (taken : pattern.Takes (place.after count) used) (free : resume ≤ place.index + count) :
    ∃ occurrence ∈ collect resume [] (place.along.map pattern.site),
      occurrence.start.index ≤ place.index + count ∧
        place.index + count < occurrence.stop.index := by
  induction count generalizing place resume with
  | zero =>
    rw [Place.after_zero] at taken
    obtain ⟨stop, preferred⟩ : ∃ stop, (pattern.ends place).head? = some stop :=
      Option.ne_none_iff_exists'.mp fun none => head?_ends_eq_none_iff.mp none used taken
    obtain ⟨first, firstTaken, rfl⟩ := exists_takes_of_head? preferred
    have length := List.length_pos_iff.mpr (some' place first firstTaken)
    rw [Place.along_eq_cons, List.map_cons, site, preferred, collect,
      if_pos (show resume ≤ place.index from free), collect_found]
    refine ⟨⟨place, place.after first.length⟩, List.mem_append_left _ (by simp), Nat.le_refl _, ?_⟩
    rw [Place.after_index]
    omega
  | succ count ih =>
    have rest : place.rest ≠ [] := List.length_pos_iff.mp (by omega)
    have onward (resume : Nat) (free : resume ≤ place.index + (count + 1)) :
        ∃ occurrence ∈ collect resume [] ((place.after 1).along.map pattern.site),
          occurrence.start.index ≤ place.index + (count + 1) ∧
            place.index + (count + 1) < occurrence.stop.index := by
      have next : (place.after 1).index + count = place.index + (count + 1) := by
        rw [Place.after_index]
        omega
      have fits : count ≤ (place.after 1).rest.length := by
        rw [Place.after_rest, List.length_drop]
        omega
      rw [← next] at free ⊢
      exact ih (place.after 1) fits (by rwa [Place.after_after, Nat.add_comm 1 count]) free
    rw [Place.along_eq_cons, if_neg rest, List.map_cons, site]
    cases preferred : (pattern.ends place).head? with
    | none => exact onward resume free
    | some stop =>
      rw [collect]
      split
      · rw [collect_found]
        rcases Nat.lt_or_ge (place.index + (count + 1)) stop.index with inside | beyond
        · exact ⟨⟨place, stop⟩, List.mem_append_left _ (by simp), Nat.le_add_right _ _, inside⟩
        · obtain ⟨occurrence, member, holds⟩ := onward stop.index beyond
          exact ⟨occurrence, List.mem_append_right _ member, holds⟩
      · exact onward resume free

/-- An occurrence starts at a place of the text and stops behind what the pattern takes there. -/
theorem takes_of_mem_occurrences {text : List Char} {occurrence : Occurrence}
    (found : occurrence ∈ pattern.occurrences text) :
    occurrence.start ∈ (Place.origin text).along ∧ ∃ used,
      pattern.Takes occurrence.start used ∧
        occurrence.stop = occurrence.start.after used.length := by
  rw [occurrences, stops_eq] at found
  obtain ⟨start, starting, site⟩ := List.mem_map.mp (mem_of_mem_collect found)
  obtain ⟨rfl, preferred⟩ := Prod.mk.inj site
  exact ⟨starting, exists_takes_of_head? preferred⟩

/-- Within an occurrence at most one place is marked. -/
theorem HoldsOne.eq_of_mem_occurrences (holds : pattern.HoldsOne marked) {text : List Char}
    {occurrence : Occurrence} (found : occurrence ∈ pattern.occurrences text) :
    ∃ only, ∀ place ∈ (Place.origin text).along, marked place = true →
      occurrence.start.index ≤ place.index → place.index < occurrence.stop.index → place = only := by
  obtain ⟨starting, used, taken, stops⟩ := takes_of_mem_occurrences found
  obtain ⟨first, -, begins⟩ := Place.mem_along.mp starting
  obtain ⟨only, -, unique⟩ := holds _ used taken
  refine ⟨occurrence.start.after only, fun place member here from' before => ?_⟩
  obtain ⟨count, -, rfl⟩ := Place.mem_along.mp member
  rw [stops, begins, Place.after_index] at before
  rw [begins] at from'
  simp only [Place.after_index, Place.origin_index, Nat.zero_add] at from' before
  obtain ⟨more, rfl⟩ := Nat.exists_eq_add_of_le from'
  rw [← Place.after_after, ← begins] at here ⊢
  rw [(unique more (by omega)).mp here]

/-- Each marked place of a text lies within an occurrence, in which no other place is marked. -/
theorem HoldsOne.exists_occurrence (holds : pattern.HoldsOne marked)
    (starts : ∀ place, marked place = true → ∃ used, pattern.Takes place used) {text : List Char}
    {place : Place} (member : place ∈ (Place.origin text).along) (here : marked place = true) :
    ∃ occurrence ∈ pattern.occurrences text,
      (occurrence.start.index ≤ place.index ∧ place.index < occurrence.stop.index) ∧
        ∀ other ∈ (Place.origin text).along, marked other = true →
          occurrence.start.index ≤ other.index → other.index < occurrence.stop.index →
            other = place := by
  obtain ⟨occurrence, found, around⟩ : ∃ occurrence ∈ pattern.occurrences text,
      occurrence.start.index ≤ place.index ∧ place.index < occurrence.stop.index := by
    obtain ⟨count, within, rfl⟩ := Place.mem_along.mp member
    obtain ⟨used, taken⟩ := starts _ here
    rw [occurrences, stops_eq]
    exact exists_occurrence_along (fun _ _ => holds.ne_nil) (Place.origin text) within taken
      (Nat.zero_le _)
  obtain ⟨only, unique⟩ := holds.eq_of_mem_occurrences found
  refine ⟨occurrence, found, around, fun other otherMember isMarked from' before => ?_⟩
  rw [unique other otherMember isMarked from' before, unique place member here around.1 around.2]

end Pattern

end SnippetAudit
