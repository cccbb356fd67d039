import SnippetAudit.Pattern.Build

/-!
Where a pattern may stop. From a place a pattern may stop at several places, and the list of them in
order of preference is what its tables stand for: a table holds, for each place of a text, what the
first stop attains that attains anything.
-/

namespace SnippetAudit

open Text

namespace Place

def origin (text : List Char) : Place :=
  ⟨0, none, text⟩

/-- The place a number of characters further on. -/
def after (place : Place) (count : Nat) : Place :=
  ⟨place.index + count, (place.rest.take count).getLast?.or place.before, place.rest.drop count⟩

/-- A place and all places behind it, up to the end of the text. -/
def along (place : Place) : List Place :=
  (List.range (place.rest.length + 1)).map place.after

@[simp] theorem after_index (place : Place) (count : Nat) :
    (place.after count).index = place.index + count := rfl

@[simp] theorem after_rest (place : Place) (count : Nat) :
    (place.after count).rest = place.rest.drop count := rfl

@[simp] theorem origin_rest (text : List Char) : (origin text).rest = text := rfl

@[simp] theorem origin_index (text : List Char) : (origin text).index = 0 := rfl

@[simp] theorem after_zero (place : Place) : place.after 0 = place := by
  simp [after]

@[simp] theorem after_after (place : Place) (first second : Nat) :
    (place.after first).after second = place.after (first + second) := by
  have taken : place.rest.take (first + second) =
      place.rest.take first ++ (place.rest.drop first).take second := List.take_add
  simp only [after, taken, List.drop_drop, Nat.add_assoc, List.getLast?_append, Option.or_assoc]

theorem after_one_after (place : Place) : (place.after 1).after = place.after ∘ Nat.succ := by
  funext count
  rw [after_after, Nat.add_comm]
  rfl

theorem after_one_rest {place : Place} {c : Char} {rest : List Char} (same : place.rest = c :: rest) :
    (place.after 1).rest = rest := by
  rw [after_rest, same]
  rfl

theorem along_eq_cons (place : Place) :
    place.along = place :: (if place.rest = [] then [] else (place.after 1).along) := by
  cases rest : place.rest with
  | nil => simp [along, rest]
  | cons c more =>
    simp only [along, rest, List.length_cons, List.range_succ_eq_map (n := more.length + 1),
      List.map_cons, List.map_map, after_zero, reduceCtorEq, if_false, after_one_rest rest,
      after_one_after]

theorem along_of_cons {place : Place} {c : Char} {rest : List Char} (same : place.rest = c :: rest) :
    place.along = place :: (place.after 1).along := by
  rw [along_eq_cons, if_neg (by rw [same]; exact List.cons_ne_nil c rest)]

theorem mem_along {place later : Place} :
    later ∈ place.along ↔ ∃ count ≤ place.rest.length, later = place.after count := by
  simp only [along, List.mem_map, List.mem_range]
  constructor
  · rintro ⟨count, within, rfl⟩
    exact ⟨count, by omega, rfl⟩
  · rintro ⟨count, within, rfl⟩
    exact ⟨count, by omega, rfl⟩

/-- The tables list the places of a text from its end. Here `front` is what the sweep has still to
pass, the character next to it first. -/
theorem backward_toList (found : Array Place) (rest front : List Char) :
    (backward found front.length rest front).toList =
      found.toList ++
        ((List.range (front.length + 1)).map (origin (front.reverse ++ rest)).after).reverse := by
  induction front generalizing found rest with
  | nil => simp [backward, origin, after]
  | cons c front ih =>
    have here : (origin ((c :: front).reverse ++ rest)).after (front.length + 1) =
        ⟨(c :: front).length, some c, rest⟩ := by
      have whole : front.length + 1 = (front.reverse ++ [c]).length := by simp
      simp only [after, origin, List.reverse_cons, whole, List.take_left, List.drop_left,
        List.getLast?_append, List.getLast?_singleton, Option.some_or, List.length_cons]
      simp
    have same : (c :: front).reverse ++ rest = front.reverse ++ c :: rest := by simp
    rw [backward, List.length_cons, Nat.add_sub_cancel, ih, ← same,
      List.range_succ (n := front.length + 1), List.map_append, List.reverse_append,
      List.map_singleton, here]
    simp

theorem all_toList (text : List Char) : (all text).toList = (origin text).along.reverse := by
  have swept := backward_toList #[] [] text.reverse
  simpa [all, along] using swept

theorem all_eq (text : List Char) : all text = (origin text).along.reverse.toArray := by
  rw [← all_toList]

theorem size_all (text : List Char) : (all text).size = text.length + 1 := by
  rw [all_eq]
  simp [along]

theorem getElem?_all {text : List Char} {left : Nat} (within : left ≤ text.length) :
    (all text)[left]? = some ((origin text).after (text.length - left)) := by
  have size : (origin text).along.length = text.length + 1 := by simp [along]
  rw [all_eq, List.getElem?_toArray, List.getElem?_reverse (by omega), size]
  simp only [along, List.getElem?_map]
  rw [List.getElem?_range (by simp only [origin_rest]; omega)]
  simp only [Option.map_some]
  congr 2

/-- An array with an entry for each place is the table of what the entries are of. -/
theorem table_ext {text : List Char} {found : Array β} {value : Place → β}
    (size : found.size = text.length + 1)
    (entries : ∀ left ≤ text.length,
      found[left]? = some (value ((origin text).after (text.length - left)))) :
    found = (all text).map value := by
  apply Array.ext_getElem?
  intro left
  by_cases within : left ≤ text.length
  · rw [entries left within, Array.getElem?_map, getElem?_all within, Option.map_some]
  · rw [Array.getElem?_eq_none (by omega),
      Array.getElem?_eq_none (by rw [Array.size_map, size_all]; omega)]

theorem getElem?_table {text : List Char} (goal : Place → Option α) {left : Nat}
    (within : left ≤ text.length) :
    ((all text).map goal)[left]?.join = goal ((origin text).after (text.length - left)) := by
  rw [Array.getElem?_map, getElem?_all within, Option.map_some, Option.join_some]

/-- A table is filled by a sweep from the end of the text if each step gives the entry of its place
from the entries of the places behind that one. -/
theorem foldl_push_eq {text : List Char} {value : Place → β} (step : Array β → Place → β)
    (steps : ∀ passed place coming, (all text).toList = passed ++ place :: coming →
      step (passed.map value).toArray place = value place) :
    (all text).foldl (fun found place => found.push (step found place)) #[] =
      (all text).map value := by
  have sweep : ∀ coming passed, (all text).toList = passed ++ coming →
      coming.foldl (fun found place => found.push (step found place)) (passed.map value).toArray =
        ((passed ++ coming).map value).toArray := by
    intro coming
    induction coming with
    | nil => intro passed _; simp
    | cons place coming ih =>
      intro passed split
      have next := ih (passed ++ [place]) (by simpa using split)
      rw [List.foldl_cons, steps passed place coming split]
      simpa using next
  rw [← Array.foldl_toList, ← Array.toList_inj, Array.toList_map]
  have whole := sweep (all text).toList [] rfl
  rw [List.map_nil, List.nil_append] at whole
  rw [whole]

theorem passed_getLast? {text : List Char} {passed coming : List Place} {place : Place}
    (split : (all text).toList = passed ++ place :: coming) :
    passed.length = place.rest.length ∧ place = (origin text).after (text.length - passed.length) ∧
      passed.getLast? = if place.rest = [] then none else some (place.after 1) := by
  have total := congrArg List.length split
  rw [Array.length_toList, size_all, List.length_append, List.length_cons] at total
  have here : (all text).toList[passed.length]? = some place := by
    rw [split, List.getElem?_append_right (by omega)]
    simp
  rw [Array.getElem?_toList, getElem?_all (by omega), Option.some.injEq] at here
  have length : passed.length = place.rest.length := by
    rw [← here, after_rest, origin_rest, List.length_drop]
    omega
  refine ⟨length, here.symm, ?_⟩
  split
  · next empty =>
    rw [empty, List.length_nil] at length
    rw [List.length_eq_zero_iff.mp length, List.getLast?_nil]
  · next nonempty =>
    have positive : 0 < place.rest.length := List.length_pos_iff.mpr nonempty
    have before : (all text).toList[passed.length - 1]? = passed.getLast? := by
      rw [split, List.getElem?_append_left (by omega), List.getLast?_eq_getElem?]
    rw [← before, Array.getElem?_toList, getElem?_all (by omega), ← here, after_after]
    congr 2
    omega

theorem passed_length_le {text : List Char} {passed coming : List Place} {place : Place}
    (split : (all text).toList = passed ++ place :: coming) : passed.length ≤ text.length := by
  have total := congrArg List.length split
  rw [Array.length_toList, size_all, List.length_append, List.length_cons] at total
  omega

/-- In a table the place that the sweep has come to stands behind those it has passed. -/
theorem getElem?_passed {text : List Char} (goal : Place → Option α) {passed coming : List Place}
    {place : Place} (split : (all text).toList = passed ++ place :: coming) :
    ((all text).map goal)[passed.length]?.join = goal place := by
  rw [getElem?_table goal (passed_length_le split), ← (passed_getLast? split).2.1]

theorem rest_ne_nil_of_admits {place : Place} {accepts : Char → Bool}
    (admitted : place.admits accepts = true) : place.rest ≠ [] := by
  intro empty
  simp [admits, empty] at admitted

end Place

namespace Pattern

/-- The places at which a pattern may stop from a place, the preferred one first. -/
def ends : Pattern → Place → List Place
  | nothing, place => [place]
  | edge, place => if place.isEdge then [place] else []
  | one accepts, place => if place.admits accepts then [place.after 1] else []
  | many accepts, place =>
    (List.range ((place.rest.takeWhile accepts).length + 1)).reverse.map place.after
  | few accepts, place =>
    (List.range ((place.rest.takeWhile accepts).length + 1)).map place.after
  | word same spellings, place =>
    (spellings.filter (spells same · place.rest)).map fun spelling => place.after spelling.length
  | next first second, place => (first.ends place).flatMap second.ends
  | either first second, place => first.ends place ++ second.ends place

/-- A run goes on behind a character it accepts, and else it stops here. -/
theorem ends_many (accepts : Char → Bool) (place : Place) :
    (many accepts).ends place =
      (if place.admits accepts then (many accepts).ends (place.after 1) else []) ++ [place] := by
  cases rest : place.rest with
  | nil => simp [ends, Place.admits, rest]
  | cons c more =>
    cases accepted : accepts c with
    | false => simp [ends, Place.admits, rest, accepted]
    | true =>
      simp [ends, Place.admits, rest, accepted, List.range_succ_eq_map (n := _ + 1),
        Place.after_one_after]

theorem ends_few (accepts : Char → Bool) (place : Place) :
    (few accepts).ends place =
      place :: (if place.admits accepts then (few accepts).ends (place.after 1) else []) := by
  cases rest : place.rest with
  | nil => simp [ends, Place.admits, rest]
  | cons c more =>
    cases accepted : accepts c with
    | false => simp [ends, Place.admits, rest, accepted]
    | true =>
      simp [ends, Place.admits, rest, accepted, List.range_succ_eq_map (n := _ + 1),
        Place.after_one_after]

theorem findSome?_flatMap (goal : β → Option γ) (found : α → List β) (sources : List α) :
    (sources.flatMap found).findSome? goal =
      sources.findSome? fun source => (found source).findSome? goal := by
  induction sources with
  | nil => rfl
  | cons source sources ih =>
    rw [List.flatMap_cons, List.findSome?_append, List.findSome?_cons, ih]
    cases (found source).findSome? goal <;> rfl

theorem length_le_of_spells {same : Char → Char → Bool} {spelling text : List Char}
    (spelt : spells same spelling text = true) : spelling.length ≤ text.length := by
  induction spelling generalizing text with
  | nil => exact Nat.zero_le _
  | cons c spelling ih =>
    cases text with
    | nil => simp [spells] at spelt
    | cons d text =>
      simp only [spells, Bool.and_eq_true] at spelt
      simpa using ih spelt.2

theorem exists_after_of_mem_ends {pattern : Pattern} {place stop : Place}
    (reached : stop ∈ pattern.ends place) :
    ∃ count ≤ place.rest.length, stop = place.after count := by
  induction pattern generalizing place stop with
  | nothing => exact ⟨0, Nat.zero_le _, by simpa [ends] using reached⟩
  | edge =>
    simp only [ends, List.mem_ite_nil_right, List.mem_singleton] at reached
    exact ⟨0, Nat.zero_le _, by rw [reached.2, Place.after_zero]⟩
  | one accepts =>
    simp only [ends, List.mem_ite_nil_right, List.mem_singleton] at reached
    exact ⟨1, List.length_pos_iff.mpr (Place.rest_ne_nil_of_admits reached.1), reached.2⟩
  | many accepts =>
    simp only [ends, List.mem_map, List.mem_reverse, List.mem_range] at reached
    obtain ⟨count, bound, rfl⟩ := reached
    have fits := (List.takeWhile_prefix accepts (l := place.rest)).length_le
    exact ⟨count, by omega, rfl⟩
  | few accepts =>
    simp only [ends, List.mem_map, List.mem_range] at reached
    obtain ⟨count, bound, rfl⟩ := reached
    have fits := (List.takeWhile_prefix accepts (l := place.rest)).length_le
    exact ⟨count, by omega, rfl⟩
  | word same spellings =>
    simp only [ends, List.mem_map, List.mem_filter] at reached
    obtain ⟨spelling, ⟨_, spelt⟩, rfl⟩ := reached
    exact ⟨spelling.length, length_le_of_spells spelt, rfl⟩
  | next first second ihFirst ihSecond =>
    obtain ⟨middle, toMiddle, toStop⟩ := List.mem_flatMap.mp reached
    obtain ⟨count, within, rfl⟩ := ihFirst toMiddle
    obtain ⟨more, moreWithin, rfl⟩ := ihSecond toStop
    rw [Place.after_rest, List.length_drop] at moreWithin
    exact ⟨count + more, by omega, Place.after_after place count more⟩
  | either first second ihFirst ihSecond =>
    rcases List.mem_append.mp reached with byFirst | bySecond
    · exact ihFirst byFirst
    · exact ihSecond bySecond

/-- The ends of a pattern are places of the text in which it starts. -/
theorem mem_all_of_mem_ends {pattern : Pattern} {text : List Char} {place stop : Place}
    (member : place ∈ (Place.all text).toList) (reached : stop ∈ pattern.ends place) :
    stop ∈ (Place.all text).toList := by
  obtain ⟨count, within, rfl⟩ := exists_after_of_mem_ends reached
  rw [Place.all_toList, List.mem_reverse, Place.mem_along] at member ⊢
  obtain ⟨start, startWithin, rfl⟩ := member
  rw [Place.after_rest, List.length_drop] at within
  exact ⟨start + count, by omega, Place.after_after _ start count⟩

/-- The tables of a pattern stand for its ends: what a place attains is what the goal attains at the
first end at which it attains anything. -/
theorem attain_eq (pattern : Pattern) (text : List Char) (goal : Place → Option α) :
    pattern.attain (Place.all text) ((Place.all text).map goal) =
      (Place.all text).map fun place => (pattern.ends place).findSome? goal := by
  induction pattern generalizing goal with
  | nothing => simp [attain, ends]
  | edge =>
    apply Place.table_ext
    · simp [attain, Place.size_all]
    · intro left within
      simp only [attain, Array.getElem?_zipWith, Array.getElem?_map, Place.getElem?_all within,
        Option.map_some, ends]
      split <;> simp
  | one accepts =>
    apply Place.table_ext
    · simp [attain, Place.size_all]
    · intro left within
      simp only [attain, Array.getElem?_mapIdx, Place.getElem?_all within, Option.map_some, ends]
      split
      · next admitted =>
        have positive : 0 < left := by
          rcases Nat.eq_zero_or_pos left with zero | positive
          · simp [zero, Place.admits, Place.after] at admitted
          · exact positive
        have next : text.length - (left - 1) = text.length - left + 1 := by omega
        rw [Place.getElem?_table goal (show left - 1 ≤ text.length by omega), next]
        simp
      · simp
  | many accepts =>
    apply Place.foldl_push_eq
    intro passed place coming split
    have last := (Place.passed_getLast? split).2.2
    have goalHere := Place.getElem?_passed goal split
    rw [ends_many, List.findSome?_append]
    simp only [List.back?_toArray, List.size_toArray, List.length_map, goalHere,
      List.getLast?_map, last, List.findSome?_singleton]
    by_cases admitted : place.admits accepts = true
    · simp [admitted, Place.rest_ne_nil_of_admits admitted]
    · simp [admitted]
  | few accepts =>
    apply Place.foldl_push_eq
    intro passed place coming split
    have last := (Place.passed_getLast? split).2.2
    have goalHere := Place.getElem?_passed goal split
    rw [ends_few, List.findSome?_cons]
    simp only [List.back?_toArray, List.size_toArray, List.length_map, goalHere,
      List.getLast?_map, last]
    by_cases admitted : place.admits accepts = true
    · cases goal place <;> simp [admitted, Place.rest_ne_nil_of_admits admitted]
    · cases goal place <;> simp [admitted]
  | word same spellings =>
    apply Place.table_ext
    · simp [attain, Place.size_all]
    · intro left within
      simp only [attain, Array.getElem?_mapIdx, Place.getElem?_all within, Option.map_some, ends,
        List.findSome?_map, Option.some.injEq]
      induction spellings with
      | nil => rfl
      | cons spelling spellings ih =>
        rw [List.findSome?_cons, ih, List.filter_cons]
        by_cases spelt :
            spells same spelling ((Place.origin text).after (text.length - left)).rest = true
        · have fits := length_le_of_spells spelt
          rw [Place.after_rest, Place.origin_rest, List.length_drop] at fits
          have next : text.length - (left - spelling.length) =
              text.length - left + spelling.length := by omega
          rw [if_pos spelt, if_pos spelt, List.findSome?_cons, Function.comp_apply,
            Place.getElem?_table goal (show left - spelling.length ≤ text.length by omega), next,
            Place.after_after]
        · rw [if_neg spelt, if_neg spelt]
  | next first second ihFirst ihSecond =>
    simp only [attain, ihSecond, ihFirst, ends, findSome?_flatMap]
    split
    · next dead =>
      have nowhere : ∀ place ∈ (Place.all text).toList,
          (second.ends place).findSome? goal = none := by
        rw [Array.all_map, ← Array.all_toList, List.all_eq_true] at dead
        intro place member
        simpa using dead place member
      rw [← Array.toList_inj, Array.toList_map, Array.toList_map]
      refine List.map_congr_left fun place member => ?_
      rw [nowhere place member, eq_comm, List.findSome?_eq_none_iff]
      intro stop reached
      exact nowhere stop (mem_all_of_mem_ends member reached)
    · rfl
  | either first second ihFirst ihSecond =>
    apply Place.table_ext
    · simp [attain, ihFirst, ihSecond, Place.size_all]
    · intro left within
      simp only [attain, ihFirst, ihSecond, Array.getElem?_zipWith, Array.getElem?_map,
        Place.getElem?_all within, Option.map_some, ends, List.findSome?_append,
        Option.orElse_eq_or, Option.orElse_eq_orElse]

/-- At every place of a text, the preferred match from it stops at the first end of the pattern. -/
theorem stops_eq (pattern : Pattern) (text : List Char) :
    pattern.stops text =
      (Place.origin text).along.map fun place => (place, (pattern.ends place).head?) := by
  have heads : ∀ places : List Place, places.findSome? some = places.head? := by
    intro places
    cases places <;> rfl
  have table := attain_eq pattern text some
  simp only [heads] at table
  rw [stops, table, Array.toListRev_eq, Array.toList_zip, Array.toList_map, Place.all_toList,
    ← List.map_prod_left_eq_zip, ← List.map_reverse, List.reverse_reverse]

end Pattern

end SnippetAudit
