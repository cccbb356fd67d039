import SnippetAudit.Proofs.Classify
import SnippetAudit.Proofs.Pattern.Call

/-!
Loops and loops within loops. The search for loops takes a loop word before a parenthesis only where
the word is not the end of a longer one; the search for loops within loops takes it anywhere. So a
text with a loop within a loop has a loop, or it has calls whose names end in a loop word.
-/

namespace SnippetAudit

open Text

/-- The words that a loop with a parenthesis begins with. -/
def loopWords : List String :=
  ["for", "while"]

/-- A loop word and a parenthesis, blanks at most between them. -/
def OpensLoop (used : List Char) : Prop :=
  IsCall (fun word => isAmong loopWords word = true) used

/-- A loop over members as in `for x in xs:`. Around its two words there are blanks, and apart from
these all of it is on one line. -/
def IsMemberLoop (used : List Char) : Prop :=
  ∃ word gap member before link behind source,
    used = word ++ gap ++ member ++ before ++ link ++ behind ++ source ++ [':'] ∧
      isAmong ["for"] word = true ∧ IsGap gap ∧ '\n' ∉ member ∧ IsGap before ∧
      isAmong ["in"] link = true ∧ IsGap behind ∧ '\n' ∉ source

/-- A loop begins at an index: a loop over members, or a loop word that is not the end of a longer
word and has a parenthesis behind it. -/
def LoopAt (text : List Char) (start : Nat) : Prop :=
  ∃ front used back, text = front ++ used ++ back ∧ front.length = start ∧
    (OpensLoop used ∧ front.getLast?.any isWord = false ∨ IsMemberLoop used)

/-- At an index a longer word comes to its end, which is a loop word before a parenthesis. -/
def TailAt (text : List Char) (start : Nat) : Prop :=
  ∃ front used back, text = front ++ used ++ back ∧ front.length = start ∧
    OpensLoop used ∧ front.getLast?.any isWord = true

namespace Pattern

variable {place : Place} {used text : List Char}

theorem describes_inLine : (many inLine).Describes ('\n' ∉ ·) := by
  intro place used
  rw [takes_many]
  refine and_congr_right fun _ => ?_
  constructor
  · intro all member
    exact absurd (all '\n' member) (by decide)
  · exact bne_of_not_mem

theorem describes_memberLoop : (memberLoop (anyCase ["for"])).Describes IsMemberLoop := by
  intro place used
  have parts := (describes_anyCase ["for"]).next (describes_someBlanks.next (describes_inLine.next
    (describes_someBlanks.next ((describes_anyCase ["in"]).next (describes_someBlanks.next
      (describes_inLine.next (describes_char ':')))))))
  simp only [memberLoop, sequence]
  refine (parts place used).trans (and_congr_right fun _ => ?_)
  constructor
  · rintro ⟨word, _, rfl, isFor, gap, _, rfl, isGap, member, _, rfl, onLine, before, _, rfl, isBefore,
      link, _, rfl, isIn, behind, _, rfl, isBehind, source, _, rfl, sourceOnLine, rfl⟩
    exact ⟨word, gap, member, before, link, behind, source, by simp, isFor, isGap, onLine, isBefore,
      isIn, isBehind, sourceOnLine⟩
  · rintro ⟨word, gap, member, before, link, behind, source, rfl, isFor, isGap, onLine, isBefore,
      isIn, isBehind, sourceOnLine⟩
    exact ⟨word, _, by simp, isFor, gap, _, rfl, isGap, member, _, rfl, onLine, before, _, rfl,
      isBefore, link, _, rfl, isIn, behind, _, rfl, isBehind, source, _, rfl, sourceOnLine, rfl⟩

theorem head?_any_of_loopWord (word : List Char) (among : isAmong loopWords word = true) :
    word.head?.any isWord = true :=
  head?_any_of_isAmong (by decide) among

theorem takes_loop : loop.Takes place used ↔ used <+: place.rest ∧
    (OpensLoop used ∧ place.before.any isWord = false ∨ IsMemberLoop used) := by
  rw [loop, takes_either, describes_memberLoop place used, and_or_left]
  refine or_congr_left ?_
  refine (takes_call (describes_anyCase loopWords) head?_any_of_loopWord).trans ?_
  exact and_congr_right fun _ => and_comm

theorem occursIn_loop_iff : loop.occursIn text = true ↔ ∃ start, LoopAt text start := by
  simp only [occursIn_iff, takes_loop, Place.amid_rest, Place.amid_before, List.prefix_append,
    true_and]
  constructor
  · rintro ⟨front, used, back, rfl, shape⟩
    exact ⟨front.length, front, used, back, rfl, rfl, shape⟩
  · rintro ⟨_, front, used, back, rfl, -, shape⟩
    exact ⟨front, used, back, rfl, shape⟩

/-- A group on a line begins with a parenthesis, so a name before it is called. -/
theorem exists_call_of_takes {names : List String}
    (taken : (sequence [anyCase names, lineGroup]).Takes place used) :
    ∃ opening, opening <+: used ∧ IsCall (fun word => isAmong names word = true) opening := by
  obtain ⟨name, _, rfl, inName, group⟩ := takes_next.mp taken
  obtain ⟨opening, rest, rfl, inOpening, -⟩ :=
    (takes_sequence_append [blanks, char '(']).mp group
  have call := (describes_call (describes_anyCase names) place (name ++ opening)).mp
    (takes_next.mpr ⟨name, opening, rfl, inName, inOpening⟩)
  exact ⟨name ++ opening, ⟨rest, List.append_assoc name opening rest⟩, call.2⟩

/-- Two loops are opened, one behind the other. -/
def OpensTwo (place : Place) : Prop :=
  ∃ first steps second, 0 < steps ∧ steps ≤ place.rest.length ∧ first <+: place.rest ∧
    OpensLoop first ∧ second <+: (place.after steps).rest ∧ OpensLoop second

theorem opensTwo_of_takes {loopWord : String} (listed : loopWord ∈ loopWords)
    (taken : (loopAround loopWord).Takes place used) : OpensTwo place := by
  obtain ⟨front, back, rfl, outer, inner⟩ := (takes_sequence_append
    [anyCase [loopWord], lineGroup, blanks, char '{', few anything]).mp taken
  obtain ⟨start, rest, rfl, head, -⟩ :=
    (takes_sequence_append [anyCase [loopWord], lineGroup]).mp outer
  obtain ⟨first, firstPart, firstCall⟩ := exists_call_of_takes head
  obtain ⟨second, secondPart, secondCall⟩ := exists_call_of_takes inner
  have opensFirst : OpensLoop first := by
    refine firstCall.mono fun word among => ?_
    obtain ⟨name, isName, same⟩ := List.any_eq_true.mp among
    exact List.any_eq_true.mpr ⟨name, List.mem_singleton.mp isName ▸ listed, same⟩
  have firstInside : first <+: place.rest := firstPart.trans head.1
  have filled := firstCall.length_pos
  refine ⟨first, (start ++ rest).length, second, ?_, outer.1.length_le, firstInside, opensFirst,
    secondPart.trans inner.1, secondCall⟩
  have longer := firstPart.length_le
  rw [List.length_append]
  omega

/-- A loop within a loop is one over members, or two loop words stand before parentheses. -/
theorem takes_nestedLoop (taken : nestedLoop.Takes place used) :
    (∃ inside, inside <+: place.rest ∧ IsMemberLoop inside) ∨ OpensTwo place := by
  rcases takes_either.mp taken with aroundFor | others
  · exact Or.inr (opensTwo_of_takes (by decide) aroundFor)
  · rcases takes_either.mp others with aroundWhile | members
    · exact Or.inr (opensTwo_of_takes (by decide) aroundWhile)
    · obtain ⟨first, _, rfl, inFirst, -⟩ := takes_next.mp members
      exact Or.inl ⟨first, (describes_memberLoop place first).mp inFirst⟩

end Pattern

variable {text : List Char} {recursive : Bool}

theorem one_le_loopCount_iff : 1 ≤ loopCount text ↔ ∃ start, LoopAt text start := by
  rw [loopCount, Pattern.one_le_count_iff, Pattern.occursIn_loop_iff]

/-- The search for any iteration looks for loops as the search for loops does. -/
theorem hasIteration_iff_occursIn : hasIteration text = true ↔
    Pattern.loop.occursIn text = true ∨ Pattern.collectionCall.occursIn text = true := by
  simp only [hasIteration, Pattern.iteration, Pattern.choice, Pattern.loop,
    Pattern.occursIn_either_iff, or_assoc]

theorem loopAt_or_tailAt {place : Place} {opening : List Char}
    (member : place ∈ (Place.origin text).along) (inside : opening <+: place.rest)
    (opens : OpensLoop opening) : LoopAt text place.index ∨ TailAt text place.index := by
  obtain ⟨front, back, whole, length, before⟩ := Place.exists_around member inside
  cases joined : front.getLast?.any isWord with
  | false => exact Or.inl ⟨front, opening, back, whole, length, Or.inl ⟨opens, joined⟩⟩
  | true => exact Or.inr ⟨front, opening, back, whole, length, opens, joined⟩

/-- What is taken for a loop within a loop has a loop in it, or two ends of longer words. -/
theorem exists_loopAt_or_tails (nested : hasNestedLoop text = true) :
    (∃ start, LoopAt text start) ∨
      ∃ first second, first < second ∧ TailAt text first ∧ TailAt text second := by
  obtain ⟨place, member, _, taken⟩ := Pattern.occursIn_iff_place.mp nested
  rcases Pattern.takes_nestedLoop taken with ⟨inside, part, memberLoop⟩ | two
  · obtain ⟨front, back, whole, length, -⟩ := Place.exists_around member part
    exact Or.inl ⟨place.index, front, inside, back, whole, length, Or.inr memberLoop⟩
  · obtain ⟨first, steps, second, positive, within, inFirst, opensFirst, inSecond, opensSecond⟩ := two
    rcases loopAt_or_tailAt member inFirst opensFirst with loop | firstTail
    · exact Or.inl ⟨_, loop⟩
    · rcases loopAt_or_tailAt (Place.after_mem_along member within) inSecond opensSecond with
        loop | secondTail
      · exact Or.inl ⟨_, loop⟩
      · refine Or.inr ⟨place.index, (place.after steps).index, ?_, firstTail, secondTail⟩
        rw [Place.after_index]
        omega

/-- A text that is told to have a loop within a loop, or to be quadratic for its loops, has a loop, and
the searches for loops and for iterations both find it. Or it has none, and then two longer words that
end in a loop word are taken for one. -/
theorem loops_of_nestedLoop (loops : hasNestedLoop text = true ∨
      (Classify.timeVerdict text recursive).growth = .quadratic) :
    ((∃ start, LoopAt text start) ∧ 1 ≤ loopCount text ∧ hasIteration text = true) ∨
      ((∀ start, ¬LoopAt text start) ∧ loopCount text = 0 ∧
        ∃ first second, first < second ∧ TailAt text first ∧ TailAt text second) := by
  have found (loop : ∃ start, LoopAt text start) :
      (∃ start, LoopAt text start) ∧ 1 ≤ loopCount text ∧ hasIteration text = true :=
    ⟨loop, one_le_loopCount_iff.mpr loop,
      hasIteration_iff_occursIn.mpr (Or.inl (Pattern.occursIn_loop_iff.mpr loop))⟩
  have nested : (∃ start, LoopAt text start) ∨ hasNestedLoop text = true := by
    rcases loops with nested | quadratic
    · exact Or.inr nested
    · have warrants := Classify.warrants_timeVerdict text recursive
      rw [quadratic] at warrants
      exact warrants.imp_left fun several => one_le_loopCount_iff.mp (Nat.le_of_succ_le several)
  by_cases loop : ∃ start, LoopAt text start
  · exact Or.inl (found loop)
  · have tails := (exists_loopAt_or_tails (nested.resolve_left loop)).resolve_left loop
    have none : loopCount text = 0 := by
      rw [← one_le_loopCount_iff] at loop
      omega
    exact Or.inr ⟨fun start here => loop ⟨start, here⟩, none, tails⟩

/-- Two calls of a function whose name ends in a loop word, one in the block behind the other. -/
def waitingText : List Char :=
  "waitFor(a) \x7b waitFor(b) \x7d".toList

/-- It has no loop, and is taken for one within another all the same. -/
theorem loops_of_waitingText :
    hasNestedLoop waitingText = true ∧ loopCount waitingText = 0 ∧
      ∃ first second, first < second ∧ TailAt waitingText first ∧ TailAt waitingText second := by
  have nested : hasNestedLoop waitingText = true :=
    Pattern.occursIn_iff.mpr ⟨"wait".toList, "For(a) \x7b waitFor(b)".toList, " \x7d".toList,
      by decide, by decide, by decide +kernel⟩
  have none : Pattern.loop.occursIn waitingText = false := by
    rw [Pattern.occursIn_eq_any]
    decide +kernel
  rcases @loops_of_nestedLoop waitingText false (Or.inl nested) with ⟨-, found, -⟩ | ⟨-, empty, tails⟩
  · rw [loopCount, Pattern.one_le_count_iff, none] at found
    cases found
  · exact ⟨nested, empty, tails⟩

end SnippetAudit
