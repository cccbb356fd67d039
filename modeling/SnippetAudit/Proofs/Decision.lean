import SnippetAudit.Decision
import SnippetAudit.Proofs.Pattern.Token

/-!
Decisions counted one by one. Decisions are met by a search that goes on behind each match, and one
of its spellings, `else if`, holds another. The count is nevertheless what one gets by looking at
each word and at each place of the text for itself.
-/

namespace SnippetAudit

open Text

/-- The words at which a program may go one way or the other. -/
def decisionKeywords : List String :=
  ["if", "for", "while", "switch", "case", "catch", "elif"]

namespace Place

variable {place : Place} {used : List Char}

/-- An operator that may stop early stands at a place, with a word character on each side. -/
def holdsOperator (place : Place) : Bool :=
  place.before.any isWord &&
    (place.rest.take 2 == "&&".toList || place.rest.take 2 == "||".toList) &&
    (place.rest.drop 2).head?.any isWord

/-- A decision is at a place: a keyword begins there as a word of its own, or an operator stands
there between words. -/
def decides (place : Place) : Bool :=
  place.holdsWord (isAmong decisionKeywords) || place.holdsOperator

theorem holdsOperator_eq_false {c : Char} (first : place.rest.head? = some c)
    (other : c ≠ '&' ∧ c ≠ '|') : place.holdsOperator = false := by
  obtain ⟨rest, whole⟩ := List.head?_eq_some_iff.mp first
  rw [holdsOperator, whole]
  simp [other]

theorem isWord_of_operator {c : Char} (operator : c = '&' ∨ c = '|') : isWord c = false := by
  rcases operator with rfl | rfl <;> decide

theorem ne_of_isWord {c : Char} (word : isWord c = true) : c ≠ '&' ∧ c ≠ '|' := by
  refine not_or.mp fun operator => ?_
  rw [isWord_of_operator operator] at word
  cases word

/-- In a word the only decision is the word itself, at its beginning. -/
theorem HasWord.decides_after (has : place.HasWord used) {count : Nat}
    (within : count < used.length) :
    (place.after count).decides = (count == 0 && isAmong decisionKeywords used) := by
  have first := head?_after has.inside within
  have word := has.word _ (List.getElem_mem within)
  rw [decides, has.holdsWord_after _ within, holdsOperator_eq_false first (ne_of_isWord word),
    Bool.or_false]

/-- At a character of no word that is no operator there is no decision. -/
theorem decides_eq_false {c : Char} (first : place.rest.head? = some c) (noWord : isWord c = false)
    (other : c ≠ '&' ∧ c ≠ '|') : place.decides = false := by
  rw [decides, holdsOperator_eq_false first other, holdsWord, first, Option.any_some, noWord]
  simp

end Place

namespace Pattern

variable {place : Place} {used : List Char}

/-- The spellings of decisions, told apart by what they hold: a keyword, a keyword behind another
word, or an operator. -/
theorem takes_decisionWord : decisionWord.Takes place used ↔
    used <+: place.rest ∧ (isAmong decisionKeywords used = true ∨ folded used = "else if".toList ∨
      used = "&&".toList ∨ used = "||".toList) ∧
      place.isEdge = true ∧ (place.after used.length).isEdge = true := by
  have spellings : isAmong ("else if" :: (decisionKeywords ++ ["&&", "||"])) used = true ↔
      isAmong decisionKeywords used = true ∨ folded used = "else if".toList ∨
        used = "&&".toList ∨ used = "||".toList := by
    have operator (name : String) (kept : folded name.toList = name.toList)
        (noWord : (name.toList.all fun c => !isWord c) = true) :
        folded name.toList = folded used ↔ used = name.toList := by
      rw [kept]
      refine ⟨fun same => eq_of_folded_eq noWord same.symm, ?_⟩
      rintro rfl
      exact kept.symm
    have spaced : folded "else if".toList = "else if".toList := by decide
    simp only [isAmong, List.any_cons, List.any_append, List.any_nil, Bool.or_eq_true, beq_iff_eq,
      Bool.or_false, spaced, operator "&&" (by decide) (by decide), eq_comm (a := "else if".toList),
      operator "||" (by decide) (by decide)]
    exact or_left_comm
  rw [← spellings]
  exact takes_token

/-- An operator between words is one between edges, as it has no word character itself. -/
theorem holdsOperator_iff : place.holdsOperator = true ↔
    ∃ c, (c = '&' ∨ c = '|') ∧ [c, c] <+: place.rest ∧ place.isEdge = true ∧
      (place.after 2).isEdge = true := by
  have edges {c : Char} (noWord : isWord c = false) (inside : [c, c] <+: place.rest) :
      place.isEdge = place.before.any isWord ∧
        (place.after 2).isEdge = (place.rest.drop 2).head?.any isWord := by
    obtain ⟨tail, rest⟩ := inside
    rw [Place.isEdge, Place.isEdge, Place.after, ← rest]
    simp [noWord]
  rw [Place.holdsOperator, Bool.and_eq_true, Bool.and_eq_true, Bool.or_eq_true, beq_iff_eq,
    beq_iff_eq]
  constructor
  · rintro ⟨⟨before, operator⟩, behind⟩
    have ofSpelling {c : Char} (noWord : isWord c = false) (taken : place.rest.take 2 = [c, c]) :
        [c, c] <+: place.rest ∧ place.isEdge = true ∧ (place.after 2).isEdge = true := by
      have inside : [c, c] <+: place.rest := taken ▸ List.take_prefix 2 _
      obtain ⟨first, last⟩ := edges noWord inside
      exact ⟨inside, first.trans before, last.trans behind⟩
    rcases operator with both | either
    · exact ⟨'&', Or.inl rfl, ofSpelling (by decide) both⟩
    · exact ⟨'|', Or.inr rfl, ofSpelling (by decide) either⟩
  · rintro ⟨c, operator, inside, opens, closes⟩
    have noWord := Place.isWord_of_operator operator
    obtain ⟨first, last⟩ := edges noWord inside
    have taken := (List.prefix_iff_eq_take.mp inside).symm
    refine ⟨⟨first.symm.trans opens, ?_⟩, last.symm.trans closes⟩
    rcases operator with rfl | rfl
    · exact Or.inl taken
    · exact Or.inr taken

/-- Between the characters of an operator there is no decision. -/
theorem decides_within_operator {c : Char} (noWord : isWord c = false)
    (inside : [c, c] <+: place.rest) : (place.after 1).decides = false := by
  obtain ⟨tail, rest⟩ := inside
  have before : (place.after 1).before = some c := by
    rw [Place.after, ← rest]
    rfl
  have first : (place.after 1).rest.head? = some c := by
    rw [Place.after_rest, ← rest]
    rfl
  rw [Place.decides, Place.holdsWord, Place.holdsOperator, before, first, Option.any_some, noWord]
  rfl

theorem exists_of_folded_elseIf (same : folded used = "else if".toList) :
    ∃ first second, used = first ++ ' ' :: second ∧ folded first = "else".toList ∧
      folded second = "if".toList := by
  have parts : used.map foldCase = "else".toList ++ ' ' :: "if".toList := same
  obtain ⟨first, rest, rfl, isElse, others⟩ := List.map_eq_append_iff.mp parts
  obtain ⟨c, second, rfl, space, isIf⟩ := List.map_eq_cons_iff.mp others
  obtain rfl := eq_of_foldCase_eq space (by decide)
  exact ⟨first, second, rfl, isElse, isIf⟩

/-- In `else if` the second word is a decision, and nothing else in it is. -/
theorem decides_elseIf_iff (inside : used <+: place.rest) (opens : place.isEdge = true)
    (closes : (place.after used.length).isEdge = true) (same : folded used = "else if".toList)
    {count : Nat} (within : count < used.length) :
    (place.after count).decides = true ↔ count = 5 := by
  obtain ⟨first, second, rfl, isElse, isIf⟩ := exists_of_folded_elseIf same
  have firstWord := isWord_of_folded_eq (by decide) isElse
  have secondWord := isWord_of_folded_eq (by decide) isIf
  have firstLength : first.length = 4 := by simpa [folded] using congrArg List.length isElse
  have secondLength : second.length = 2 := by simpa [folded] using congrArg List.length isIf
  obtain ⟨tail, rest⟩ := inside
  have atSpace : (place.after 4).rest = ' ' :: (second ++ tail) := by
    rw [Place.after_rest, ← rest, ← firstLength, List.append_assoc, List.drop_left]
    rfl
  have hasFirst : place.HasWord first := by
    have inFirst : first <+: place.rest := ⟨' ' :: (second ++ tail), by rw [← rest]; simp⟩
    refine ⟨inFirst, firstWord, List.length_pos_iff.mp (by omega), opens, ?_⟩
    obtain ⟨c, member, last⟩ := Place.before_after inFirst (show 0 < 4 by decide) (by omega)
    rw [firstLength, Place.isEdge, last, atSpace, Option.any_some, firstWord c member]
    rfl
  have hasSecond : (place.after 5).HasWord second := by
    have behind : (place.after 5).rest = second ++ tail := by
      rw [← Place.after_after place 4 1, Place.after_rest, atSpace]
      rfl
    have spaced : (place.after 5).before = some ' ' := by
      rw [← Place.after_after place 4 1, Place.after, atSpace]
      rfl
    have inSecond : second <+: (place.after 5).rest := ⟨tail, behind.symm⟩
    refine ⟨inSecond, secondWord, List.length_pos_iff.mp (by omega), ?_, ?_⟩
    · have opened := Place.head?_after inSecond (show 0 < second.length by omega)
      rw [Place.after_zero] at opened
      rw [Place.isEdge, spaced, opened, Option.any_some, Option.any_some,
        secondWord _ (List.getElem_mem _)]
      rfl
    · rw [Place.after_after, secondLength]
      simpa [firstLength, secondLength] using closes
  have noKeyword : isAmong decisionKeywords first = false := by
    rw [isAmong, isElse]
    decide
  have keyword : isAmong decisionKeywords second = true := by
    rw [isAmong, isIf]
    decide
  rw [List.length_append, List.length_cons] at within
  rcases Nat.lt_trichotomy count 4 with before | rfl | behind
  · rw [hasFirst.decides_after (by omega), noKeyword, Bool.and_false]
    exact iff_of_false Bool.false_ne_true (by omega)
  · rw [Place.decides_eq_false (c := ' ') (by rw [atSpace]; rfl) (by decide) (by decide)]
    exact iff_of_false Bool.false_ne_true (by omega)
  · obtain ⟨more, rfl⟩ : ∃ more, count = 5 + more := ⟨count - 5, by omega⟩
    rw [← Place.after_after, hasSecond.decides_after (by omega), keyword, Bool.and_true, beq_iff_eq]
    omega

/-- Every match holds one decision: a keyword or an operator is one itself, and in `else if` the
second word is. -/
theorem holdsOne_decisionWord : decisionWord.HoldsOne Place.decides := by
  intro place used taken
  obtain ⟨inside, keyword | elseIf | operator, opens, closes⟩ := takes_decisionWord.mp taken
  · have some' := ne_nil_of_isAmong (by decide) keyword
    have word := isWord_of_isAmong (by decide) keyword
    have has : place.HasWord used := ⟨inside, word, some', opens, closes⟩
    refine ⟨0, List.length_pos_iff.mpr some', fun count within => ?_⟩
    rw [has.decides_after within, keyword, Bool.and_true, beq_iff_eq]
  · have length : used.length = 7 := by simpa [folded] using congrArg List.length elseIf
    exact ⟨5, by omega, fun count within => decides_elseIf_iff inside opens closes elseIf within⟩
  · obtain ⟨c, spelling, isOperator⟩ : ∃ c, used = [c, c] ∧ (c = '&' ∨ c = '|') := by
      rcases operator with rfl | rfl
      · exact ⟨'&', rfl, Or.inl rfl⟩
      · exact ⟨'|', rfl, Or.inr rfl⟩
    subst spelling
    have noWord := Place.isWord_of_operator isOperator
    have here : place.decides = true := by
      rw [Place.decides, holdsOperator_iff.mpr ⟨c, isOperator, inside, opens, closes⟩, Bool.or_true]
    refine ⟨0, Nat.zero_lt_succ 1, fun count within => ?_⟩
    have two : count < 2 := within
    obtain rfl | rfl : count = 0 ∨ count = 1 := by omega
    · exact iff_of_true here rfl
    · rw [decides_within_operator noWord inside]
      exact iff_of_false Bool.false_ne_true Nat.one_ne_zero

/-- No decision is passed over for want of a match: one begins there. -/
theorem exists_takes_of_decides (decides : place.decides = true) :
    ∃ used, decisionWord.Takes place used := by
  rw [Place.decides, Bool.or_eq_true] at decides
  rcases decides with keyword | operator
  · obtain ⟨has, among⟩ := Place.hasWord_of_holdsWord keyword
    exact ⟨_, takes_decisionWord.mpr ⟨has.inside, Or.inl among, has.opens, has.closes⟩⟩
  · obtain ⟨c, isOperator, inside, opens, closes⟩ := holdsOperator_iff.mp operator
    refine ⟨[c, c], takes_decisionWord.mpr ⟨inside, Or.inr (Or.inr ?_), opens, closes⟩⟩
    exact isOperator.imp (fun same => by rw [same]; rfl) fun same => by rw [same]; rfl

end Pattern

/-- No operator stands where a word begins, so a decision is counted as the one or as the other. -/
theorem Place.countP_decides (places : List Place) :
    places.countP decides =
      places.countP (holdsWord (isAmong decisionKeywords)) + places.countP holdsOperator := by
  have apart (place : Place) (operator : place.holdsOperator = true) :
      place.holdsWord (isAmong decisionKeywords) = false := by
    obtain ⟨c, isOperator, ⟨tail, rest⟩, -, -⟩ := Pattern.holdsOperator_iff.mp operator
    have noWord := isWord_of_operator isOperator
    rw [holdsWord, ← rest]
    simp [noWord]
  rw [List.countP_eq_countP_filter_add places decides (holdsWord (isAmong decisionKeywords)),
    List.countP_filter, List.countP_filter]
  congr 1
  · refine List.countP_congr fun place _ => ?_
    cases keyword : place.holdsWord (isAmong decisionKeywords) <;> simp [decides, keyword]
  · refine List.countP_congr fun place _ => ?_
    cases operator : place.holdsOperator with
    | true => simp [decides, operator, apart place operator]
    | false => cases keyword : place.holdsWord (isAmong decisionKeywords) <;> simp [decides, *]

/-- A text has one decision more than it has question marks, words that are keywords, and operators
with a word character right before and right behind, as far as a count goes. Each of the words and
operators lies within a match that the search meets, and that match holds no other of them. -/
theorem decisionCount_eq (text : List Char) :
    decisionCount text = min maxCount (1 + text.count '?' +
      (words text).countP (isAmong decisionKeywords) +
      (Place.origin text).along.countP Place.holdsOperator) ∧
    ∀ place ∈ (Place.origin text).along, place.decides = true →
      ∃ occurrence ∈ decisionWord.occurrences text,
        (occurrence.start.index ≤ place.index ∧ place.index < occurrence.stop.index) ∧
          ∀ other ∈ (Place.origin text).along, other.decides = true →
            occurrence.start.index ≤ other.index → other.index < occurrence.stop.index →
              other = place := by
  have starts : ∀ place, Place.decides place = true → ∃ used, decisionWord.Takes place used :=
    fun _ => Pattern.exists_takes_of_decides
  refine ⟨?_, fun place => Pattern.holdsOne_decisionWord.exists_occurrence starts⟩
  rw [decisionCount, Pattern.holdsOne_decisionWord.count_eq starts, Place.countP_decides,
    countP_words]
  congr 1
  omega

/-- A text in which decisions stand close to each other, and one in another. -/
def crowdedText : List Char :=
  "ELſE IF a&&b||if?".toList

theorem decisionCount_crowdedText :
    decisionCount crowdedText = 6 ∧ ∃ occurrence ∈ decisionWord.occurrences crowdedText,
      occurrence.start.index ≤ 5 ∧ 5 < occurrence.stop.index := by
  obtain ⟨counted, holds⟩ := decisionCount_eq crowdedText
  have member : (Place.origin crowdedText).after 5 ∈ (Place.origin crowdedText).along :=
    Place.mem_along.mpr ⟨5, by decide, rfl⟩
  obtain ⟨occurrence, found, around, -⟩ := holds _ member (by decide)
  refine ⟨?_, occurrence, found, around⟩
  rw [counted]
  decide

end SnippetAudit
