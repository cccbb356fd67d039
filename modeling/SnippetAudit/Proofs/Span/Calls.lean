import SnippetAudit.Proofs.Span.Header

/-!
Calls of a name in a body. The search goes on behind an occurrence that is no call, so it does not
look at the occurrences that overlap that one. A name made of characters that belong to longer names
loses nothing by that: what overlaps one of its occurrences has such a character before it.
-/

namespace SnippetAudit

open Text

theorem Text.after?_eq_some_iff {start text rest : List Char} :
    after? start text = some rest ↔ text = start ++ rest := by
  induction start generalizing text with
  | nil => simp [after?]
  | cons c start ih =>
    cases text with
    | nil => simp [after?]
    | cons d text =>
      rw [after?]
      split
      · rename_i same
        rw [ih, same, List.cons_append, List.cons.injEq, and_iff_right rfl]
      · rename_i different
        simp [Ne.symm different]

theorem Text.getLast?_cons_or (c : Char) (front : List Char) (before : Option Char) :
    (c :: front).getLast?.or before = front.getLast?.or (some c) := by
  rw [List.getLast?_cons, Option.some_or]
  cases front.getLast? <;> rfl

namespace Span

variable {name text : List Char} {before : Option Char}

/-- A text begins with a name and a parenthesis behind it, blanks aside. -/
def BeginsCall (name text : List Char) : Prop :=
  ∃ gap rest, text = name ++ gap ++ '(' :: rest ∧ AllBlank gap

theorem beginsCall_append_iff {rest : List Char} :
    BeginsCall name (name ++ rest) ↔ (trimStart rest).head? = some '(' := by
  simp only [BeginsCall, List.append_assoc, List.append_cancel_left_eq]
  constructor
  · rintro ⟨gap, more, rfl, blanks⟩
    rw [trimStart, dropWhile_append_cons blanks (by decide)]
    rfl
  · intro opened
    obtain ⟨more, behind⟩ := List.head?_eq_some_iff.mp opened
    refine ⟨rest.takeWhile isBlank, more, ?_, List.all_eq_true.mp List.all_takeWhile⟩
    rw [← behind]
    exact List.takeWhile_append_dropWhile.symm

/-- A call lies behind the characters to be passed, and its name does not join on to a character
before it. -/
def CallAfter (name : List Char) (before : Option Char) (passed : Nat) (text : List Char) : Prop :=
  ∃ front back, text = front ++ back ∧ passed ≤ front.length ∧
    (front.getLast?.or before).any joinsName = false ∧ BeginsCall name back

theorem CallAfter.cons {c : Char} {passed : Nat}
    (later : CallAfter name (some c) (passed - 1) text) : CallAfter name before passed (c :: text) := by
  obtain ⟨front, back, rfl, enough, apart, called⟩ := later
  refine ⟨c :: front, back, rfl, by rw [List.length_cons]; omega, ?_, called⟩
  rwa [getLast?_cons_or]

/-- A call behind the first character is a call in the text behind it. -/
theorem CallAfter.tail {c : Char} {passed : Nat} (here : CallAfter name before passed (c :: text))
    (begins : passed = 0 → before.any joinsName = false → ¬BeginsCall name (c :: text)) :
    CallAfter name (some c) (passed - 1) text := by
  obtain ⟨front, back, same, enough, apart, called⟩ := here
  cases front with
  | nil =>
    rw [List.nil_append] at same
    exact absurd (same ▸ called) (begins (Nat.le_zero.mp enough) apart)
  | cons d front =>
    obtain ⟨rfl, rfl⟩ := List.cons.inj same
    rw [getLast?_cons_or] at apart
    rw [List.length_cons] at enough
    exact ⟨front, back, rfl, by omega, apart, called⟩

/-- Where a name stands, a call that begins within it would have a character of the name before
it. -/
theorem CallAfter.beyond {c : Char} {rest : List Char} (named : ∀ d ∈ name, joinsName d = true)
    (occurs : c :: text = name ++ rest) (later : CallAfter name (some c) 0 text) :
    CallAfter name (some c) (name.length - 1) text := by
  obtain ⟨front, back, rfl, -, apart, called⟩ := later
  rcases Nat.lt_or_ge front.length (name.length - 1) with short | enough
  · have within : c :: front <+: name :=
      List.prefix_of_prefix_length_le ⟨back, occurs⟩ (List.prefix_append name rest)
        (by rw [List.length_cons]; omega)
    have last : (front.getLast?.or (some c)).any joinsName = true := by
      rw [← getLast?_cons_or c front none, Option.or_none, List.getLast?_cons, Option.any_some]
      exact named _ (within.subset (List.mem_of_getLast? List.getLast?_cons))
    rw [last] at apart
    cases apart
  · exact ⟨front, back, rfl, enough, apart, called⟩

/-- What the search finds is a call, whatever the name is made of. -/
theorem callAfter_of_callsIn {passed : Nat} (found : callsIn name before passed text = true) :
    CallAfter name before passed text := by
  induction text generalizing before passed with
  | nil => cases found
  | cons c text ih =>
    rw [callsIn] at found
    split at found
    · exact (ih found).cons
    · rename_i free
      have none : passed = 0 := Decidable.not_not.mp free
      subst none
      split at found
      · exact (ih found).cons
      · rename_i rest occurs
        rw [after?_eq_some_iff] at occurs
        split at found
        · rename_i calls
          rw [Bool.and_eq_true, Bool.not_eq_true', beq_iff_eq] at calls
          refine ⟨[], c :: text, rfl, Nat.zero_le _, calls.1, ?_⟩
          rw [occurs]
          exact beginsCall_append_iff.mpr calls.2
        · obtain ⟨front, back, same, _, others⟩ := ih found
          exact CallAfter.cons ⟨front, back, same, Nat.zero_le _, others⟩

/-- The search misses no call of a name whose characters belong to longer names. -/
theorem callsIn_of_callAfter {passed : Nat} (named : ∀ c ∈ name, joinsName c = true)
    (called : CallAfter name before passed text) :
    callsIn name before passed text = true := by
  induction text generalizing before passed with
  | nil =>
    obtain ⟨front, back, same, -, -, gap, rest, begins, -⟩ := called
    have empty := (List.append_eq_nil_iff.mp same.symm).2
    rw [empty] at begins
    simp at begins
  | cons c text ih =>
    rw [callsIn]
    split
    · rename_i held
      exact ih (called.tail fun free => absurd free held)
    · rename_i free
      have none : passed = 0 := Decidable.not_not.mp free
      subst none
      split
      · rename_i nowhere
        refine ih (called.tail fun _ _ begins => ?_)
        obtain ⟨gap, rest, same, -⟩ := begins
        rw [List.append_assoc, ← after?_eq_some_iff, nowhere] at same
        cases same
      · rename_i rest occurs
        rw [after?_eq_some_iff] at occurs
        split
        · rfl
        · -- the search now passes what overlaps this occurrence
          rename_i refuted
          refine ih (CallAfter.beyond named occurs (called.tail fun _ apart begins => refuted ?_))
          rw [occurs, beginsCall_append_iff] at begins
          rw [apart, begins]
          rfl

/-- A span calls itself if and only if its name stands somewhere in its body, not as the end of a
longer name, with blanks at most and a parenthesis behind it. -/
theorem callsItself_iff {span : Span} (some' : span.name ≠ [])
    (named : ∀ c ∈ span.name, joinsName c = true) :
    span.callsItself = true ↔ ∃ front gap rest,
      span.body = front ++ span.name ++ gap ++ '(' :: rest ∧
        (∀ c ∈ front.getLast?, joinsName c = false) ∧ ∀ c ∈ gap, isBlank c = true := by
  have full : span.name.isEmpty = false := by simpa using some'
  have searched : span.callsItself = callsIn span.name none 0 span.body := by
    rw [callsItself, full]
    rfl
  rw [searched]
  constructor
  · intro found
    obtain ⟨front, _, whole, -, apart, gap, rest, rfl, blanks⟩ := callAfter_of_callsIn found
    rw [Option.or_none, Option.any_eq_false] at apart
    exact ⟨front, gap, rest, by simpa using whole, fun c last => by simpa using apart c last, blanks⟩
  · rintro ⟨front, gap, rest, whole, apart, blanks⟩
    refine callsIn_of_callAfter named ⟨front, span.name ++ gap ++ '(' :: rest, ?_,
      Nat.zero_le _, ?_, gap, rest, rfl, blanks⟩
    · simpa using whole
    · rw [Option.or_none, Option.any_eq_false]
      exact fun c last => by simpa using apart c last

/-- A name that overlaps itself, in a body where it stands four times and only the last time as a
call. -/
def overlapping : Span :=
  ⟨"aba".toList, "ababa(1) + xaba(2) + aba \n(3)".toList⟩

theorem callsItself_overlapping :
    overlapping.name ≠ [] ∧ (∀ c ∈ overlapping.name, joinsName c = true) ∧
      overlapping.callsItself = true := by
  have plain : ∀ c ∈ overlapping.name, joinsName c = true :=
    List.all_eq_true.mp (by decide)
  refine ⟨by decide, plain, (callsItself_iff (by decide) plain).mpr ?_⟩
  refine ⟨"ababa(1) + xaba(2) + ".toList, " \n".toList, "3)".toList, by decide, ?_,
    List.all_eq_true.mp (by decide)⟩
  intro c last
  obtain rfl : ' ' = c := Option.some.inj last
  decide

end Span

end SnippetAudit
