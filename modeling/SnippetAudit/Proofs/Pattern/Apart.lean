import SnippetAudit.Proofs.Pattern.Search
import SnippetAudit.Proofs.Pattern.Token

/-!
Patterns whose matches lie apart. Where no match of a pattern begins within another one, none is lost
to the search from left to right, so the occurrences start at all places at which the pattern matches.
-/

namespace SnippetAudit

namespace Pattern

variable {pattern : Pattern}

/-- A match has characters, and none begins within another. -/
def Apart (pattern : Pattern) : Prop :=
  ∀ place used, pattern.Takes place used → used ≠ [] ∧
    ∀ count, 0 < count → count < used.length → ∀ other, ¬pattern.Takes (place.after count) other

theorem Apart.holdsOne (apart : pattern.Apart) : pattern.HoldsOne pattern.startsAt := by
  intro place used taken
  obtain ⟨some', alone⟩ := apart place used taken
  refine ⟨0, List.length_pos_iff.mpr some', fun count within => ?_⟩
  rw [startsAt_iff]
  constructor
  · rintro ⟨other, also⟩
    rcases Nat.eq_zero_or_pos count with none | later
    · exact none
    · exact absurd also (alone count later within other)
  · rintro rfl
    rw [Place.after_zero]
    exact ⟨used, taken⟩

/-- Such a pattern is met as often as there are places at which it matches. -/
theorem Apart.count_eq (apart : pattern.Apart) (text : List Char) :
    pattern.count text = (Place.origin text).along.countP pattern.startsAt :=
  apart.holdsOne.count_eq (fun _ here => startsAt_iff.mp here) text

/-- The occurrences of such a pattern start where it matches, at every such place. -/
theorem Apart.mem_starts_iff (apart : pattern.Apart) {text : List Char} {start : Nat} :
    start ∈ pattern.starts text ↔
      ∃ used, pattern.Takes ((Place.origin text).after start) used := by
  rw [← map_start_occurrences, List.mem_map]
  constructor
  · rintro ⟨occurrence, found, rfl⟩
    obtain ⟨starting, used, taken, -⟩ := takes_of_mem_occurrences found
    obtain ⟨count, -, begins⟩ := Place.mem_along.mp starting
    refine ⟨used, ?_⟩
    rw [begins, Place.after_index, Place.origin_index, Nat.zero_add, ← begins]
    exact taken
  · rintro ⟨used, taken⟩
    have within : start ≤ text.length := by
      have fits := taken.1.length_le
      have some' := List.length_pos_iff.mpr (apart _ _ taken).1
      rw [Place.after_rest, Place.origin_rest, List.length_drop] at fits
      omega
    obtain ⟨occurrence, found, around, alone⟩ := apart.holdsOne.exists_occurrence
      (fun place here => startsAt_iff.mp here) (Place.mem_along.mpr ⟨start, within, rfl⟩)
      (startsAt_iff.mpr ⟨used, taken⟩)
    -- the occurrence around the place begins with a match of its own, so it begins there
    obtain ⟨starting, first, own, stops⟩ := takes_of_mem_occurrences found
    have some' := List.length_pos_iff.mpr (apart _ _ own).1
    have here := alone occurrence.start starting (startsAt_iff.mpr ⟨first, own⟩) (Nat.le_refl _)
      (by rw [stops, Place.after_index]; omega)
    exact ⟨occurrence, found, by rw [here, Place.after_index, Place.origin_index, Nat.zero_add]⟩

/-- Matches lie apart if each begins with a character of a kind and has no other one of that kind. -/
theorem Apart.of_first (opens : Char → Bool)
    (shape : ∀ place used, pattern.Takes place used →
      ∃ c later, used = c :: later ∧ opens c = true ∧ ∀ d ∈ later, opens d = false) :
    pattern.Apart := by
  intro place used taken
  obtain ⟨c, later, rfl, -, shut⟩ := shape place used taken
  refine ⟨List.cons_ne_nil c later, fun count some' within other also => ?_⟩
  obtain ⟨d, more, rfl, opened, -⟩ := shape _ other also
  obtain ⟨steps, rfl⟩ := Nat.exists_eq_succ_of_ne_zero (Nat.ne_of_gt some')
  have first := Place.head?_after taken.1 within
  obtain ⟨further, rest⟩ := also.1
  rw [← rest, List.cons_append, List.head?_cons, Option.some.injEq, List.getElem_cons_succ] at first
  rw [first, shut _ (List.getElem_mem _)] at opened
  cases opened

end Pattern

end SnippetAudit
