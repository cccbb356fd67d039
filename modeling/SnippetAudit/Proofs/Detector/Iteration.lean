import SnippetAudit.Proofs.Detector.Loops

/-!
Iterations: loops, and calls that go through a collection. The search for them finds every loop that
is counted, and so does each rule that tells the growth of time from loops, so a text that is told to
take constant time has no loop.
-/

namespace SnippetAudit

open Text

/-- The names of functions that go through a collection. -/
def collectionWords : List String :=
  ["forEach", "map", "filter", "reduce"]

/-- A function that goes through a collection is called: its name is not the end of a longer word,
and behind it there are blanks at most and then a parenthesis. -/
def CallsCollection (text : List Char) : Prop :=
  ∃ front used back, text = front ++ used ++ back ∧ front.getLast?.any isWord = false ∧
    IsCall (fun word => isAmong collectionWords word = true) used

namespace Pattern

variable {place : Place} {used text : List Char}

theorem takes_collectionCall : collectionCall.Takes place used ↔
    used <+: place.rest ∧ place.before.any isWord = false ∧
      IsCall (fun word => isAmong collectionWords word = true) used := by
  have ends (word : List Char) (among : isAmong collectionWords word = true) :
      word.getLast?.any isWord = true := getLast?_any_of_isAmong (by decide) among
  have begins (word : List Char) (among : isAmong collectionWords word = true) :
      word.head?.any isWord = true := head?_any_of_isAmong (by decide) among
  rw [← takes_call (describes_anyCase collectionWords) begins]
  simp only [collectionCall, sequence, takes_edge_next]
  exact and_congr_right fun _ => takes_edge_call (describes_anyCase collectionWords) ends

theorem occursIn_collectionCall_iff :
    collectionCall.occursIn text = true ↔ CallsCollection text := by
  simp only [occursIn_iff, takes_collectionCall, Place.amid_rest, Place.amid_before,
    List.prefix_append, true_and, CallsCollection]

/-- A loop that halves is a loop. -/
theorem exists_takes_loop_of_halvingLoop (taken : halvingLoop.Takes place used) :
    ∃ other, loop.Takes place other := by
  obtain ⟨front, back, -, inFront, -⟩ :=
    (takes_sequence_append [edge, anyCase ["while"], blanks, char '(']).mp taken
  have narrow (word : List Char) (isWhile : isAmong ["while"] word = true) :
      isAmong loopWords word = true := by
    obtain ⟨name, listed, same⟩ := List.any_eq_true.mp isWhile
    exact List.any_eq_true.mpr ⟨name, List.mem_cons_of_mem _ listed, same⟩
  obtain ⟨inside, apart, call⟩ := (takes_call (describes_anyCase ["while"]) fun word isWhile =>
    head?_any_of_loopWord word (narrow word isWhile)).mp inFront
  exact ⟨front, takes_loop.mpr ⟨inside, Or.inl ⟨call.mono narrow, apart⟩⟩⟩

end Pattern

variable {text : List Char} {recursive : Bool}

theorem hasIteration_iff :
    hasIteration text = true ↔ 1 ≤ loopCount text ∨ CallsCollection text := by
  rw [hasIteration_iff_occursIn, loopCount, Pattern.one_le_count_iff,
    Pattern.occursIn_collectionCall_iff]

theorem one_le_loopCount_of_hasHalvingLoop (halving : hasHalvingLoop text = true) :
    1 ≤ loopCount text :=
  Pattern.one_le_count_iff.mpr (Pattern.occursIn_of_takes
    (fun _ _ => Pattern.exists_takes_loop_of_halvingLoop) halving)

/-- No rule and no fixture takes a text with an iteration for one of constant time. -/
theorem Classify.hasIteration_eq_false_of_constant
    (constant : (time text recursive).1 = .constant) : hasIteration text = false := by
  rw [time] at constant
  split at constant
  · rename_i fixture found
    have listed : ∀ fixture ∈ Fixture.table, fixture.time ≠ .constant := by decide
    exact absurd constant (listed fixture (List.mem_of_find?_eq_some found))
  · have warrants := warrants_timeVerdict text recursive
    rwa [show (timeVerdict text recursive).growth = .constant from constant] at warrants

/-- A text has an iteration if and only if a loop is counted in it or a function is called that goes
through a collection. A loop that halves is counted too, and where a loop is counted the time is not
told to be constant, whether or not anything in the text is recursive. -/
theorem loops_rule_out_constant (text : List Char) :
    (hasIteration text = true ↔ 1 ≤ loopCount text ∨ CallsCollection text) ∧
      (hasHalvingLoop text = true → 1 ≤ loopCount text) ∧
      ∀ recursive, (Classify.time text recursive).1 = .constant → loopCount text = 0 := by
  refine ⟨hasIteration_iff, one_le_loopCount_of_hasHalvingLoop, fun recursive constant => ?_⟩
  have still := Classify.hasIteration_eq_false_of_constant constant
  rw [← Bool.not_eq_true, hasIteration_iff, not_or] at still
  omega

/-- A loop that halves, with nothing else in it that tells of a loop. -/
def halvingText : List Char :=
  "while (n / 2 > k) n--".toList

theorem loops_of_halvingText :
    hasHalvingLoop halvingText = true ∧ 1 ≤ loopCount halvingText ∧
      hasIteration halvingText = true ∧
      ∀ recursive, (Classify.time halvingText recursive).1 ≠ .constant := by
  have halving : hasHalvingLoop halvingText = true :=
    Pattern.occursIn_iff.mpr ⟨[], "while (n / 2 > k)".toList, " n--".toList, by decide, by decide,
      by decide +kernel⟩
  obtain ⟨iterates, halves, constant⟩ := loops_rule_out_constant halvingText
  have counted := halves halving
  refine ⟨halving, counted, iterates.mpr (Or.inl counted), fun recursive told => ?_⟩
  rw [constant recursive told] at counted
  cases counted

end SnippetAudit
