import SnippetAudit.Issue.Rules
import SnippetAudit.Proofs.Pattern.Apart
import SnippetAudit.Proofs.Pattern.Call
import SnippetAudit.Proofs.Span.Calls

/-!
Output for debugging. One of the names that print holds the beginning of another, and two of them
begin alike; yet no match begins within another, so the rule counts the places at which something
prints, each of them once.
-/

namespace SnippetAudit

open Text

/-- The names that are taken for output wherever they stand. -/
def printingNames : List String :=
  ["console.log", "System.out.println", "printf"]

/-- A text begins with one of these names, or with `print` and a parenthesis behind it, blanks aside,
line breaks among them. -/
def beginsPrinting (text : List Char) : Bool :=
  printingNames.any (startsWith text ·.toList) ||
    (after? "print".toList text).any fun behind => (trimStart behind).head? == some '('

/-- How many places of a text something that prints begins at. -/
def printingCount (text : List Char) : Nat :=
  (List.range text.length).countP fun start => beginsPrinting (text.drop start)

/-- A stretch that is taken for output: a name, or a call of `print` up to its parenthesis. -/
def IsPrinting (used : List Char) : Prop :=
  used ∈ printingNames.map String.toList ∨ IsCall (· = "print".toList) used

/-- The characters that output begins with. -/
def opensPrinting (c : Char) : Bool :=
  c == 'c' || c == 'S' || c == 'p'

theorem beginsPrinting_iff {text : List Char} :
    beginsPrinting text = true ↔ ∃ used, used <+: text ∧ IsPrinting used := by
  have called : ((after? "print".toList text).any fun behind =>
      (trimStart behind).head? == some '(') = true ↔
        ∃ used, used <+: text ∧ IsCall (· = "print".toList) used := by
    rw [Option.any_eq_true]
    constructor
    · rintro ⟨behind, found, opens⟩
      rw [after?_eq_some_iff] at found
      obtain ⟨gap, more, same, gapBlank⟩ := Span.beginsCall_append_iff.mpr (beq_iff_eq.mp opens)
      refine ⟨"print".toList ++ gap ++ ['('], ⟨more, ?_⟩, _, gap, rfl, rfl, gapBlank⟩
      rw [found, same, List.append_assoc, List.singleton_append]
    · rintro ⟨_, ⟨more, rfl⟩, _, gap, rfl, rfl, gapBlank⟩
      have opens := (@Span.beginsCall_append_iff "print".toList (gap ++ '(' :: more)).mp
        ⟨gap, more, (List.append_assoc _ gap _).symm, gapBlank⟩
      exact ⟨gap ++ '(' :: more, after?_eq_some_iff.mpr (by simp), beq_iff_eq.mpr opens⟩
  simp only [beginsPrinting, Bool.or_eq_true, called, IsPrinting, and_or_left, exists_or,
    List.any_eq_true, startsWith, List.isPrefixOf_iff_prefix, List.mem_map]
  refine or_congr_left ?_
  constructor
  · rintro ⟨name, listed, begins⟩
    exact ⟨name.toList, begins, name, listed, rfl⟩
  · rintro ⟨_, begins, name, listed, rfl⟩
    exact ⟨name, listed, begins⟩

theorem opensPrinting_of_isBlank {c : Char} (blank : isBlank c = true) :
    opensPrinting c = false := by
  rw [Bool.eq_false_iff]
  intro opens
  simp only [opensPrinting, Bool.or_eq_true, beq_iff_eq] at opens
  rcases opens with (rfl | rfl) | rfl <;> exact absurd blank (by decide)

namespace IsPrinting

variable {used : List Char}

theorem head?_any (printing : IsPrinting used) : used.head?.any opensPrinting = true := by
  rcases printing with named | ⟨_, gap, rfl, rfl, -⟩
  · have all : ∀ name ∈ printingNames.map String.toList, name.head?.any opensPrinting = true := by
      decide
    exact all used named
  · rfl

/-- Behind its beginning, output has a character that output begins with in one place only, the `p`
of `println`. -/
theorem drop_eq_println (printing : IsPrinting used) {count : Nat} (later : 0 < count)
    (within : count < used.length) (opens : opensPrinting used[count] = true) :
    used.drop count = "println".toList := by
  rcases printing with named | ⟨_, gap, split, rfl, gapBlank⟩
  · have all : ∀ name ∈ printingNames.map String.toList, ∀ count, (within : count < name.length) →
        0 < count → opensPrinting name[count] = true → name.drop count = "println".toList := by
      decide
    exact all used named count within later opens
  · replace split : used = 'p' :: ("rint".toList ++ gap ++ ['(']) := split
    have shut : ∀ c ∈ "rint".toList ++ gap ++ ['('], opensPrinting c = false := by
      intro c member
      simp only [List.mem_append, List.mem_singleton] at member
      rcases member with (inName | inGap) | rfl
      · have letters : "rint".toList.all (!opensPrinting ·) = true := by decide
        simpa using List.all_eq_true.mp letters c inName
      · exact opensPrinting_of_isBlank (gapBlank c inGap)
      · rfl
    obtain ⟨steps, rfl⟩ := Nat.exists_eq_succ_of_ne_zero (Nat.ne_of_gt later)
    rw [split, List.length_cons] at within
    simp only [split, List.getElem_cons_succ] at opens
    rw [shut _ (List.getElem_mem _)] at opens
    cases opens

end IsPrinting

theorem opens_of_beginsPrinting {c : Char} {text : List Char}
    (begins : beginsPrinting (c :: text) = true) : opensPrinting c = true := by
  obtain ⟨used, ⟨more, same⟩, printing⟩ := beginsPrinting_iff.mp begins
  have first := printing.head?_any
  cases used with
  | nil => cases first
  | cons d used =>
    obtain ⟨rfl, -⟩ := List.cons.inj same
    exact first

namespace Pattern

theorem describes_printing : printing.Describes IsPrinting := by
  have name (spelling : String) := describes_exactly [spelling]
  have call := describes_call (describes_exactly ["print"])
  intro place used
  simp only [printing, choice, sequence]
  rw [(name "console.log").either ((name "System.out.println").either ((name "printf").either call))
    place used]
  simp [IsPrinting, printingNames, or_assoc]

theorem startsAt_printing (place : Place) :
    printing.startsAt place = beginsPrinting place.rest := by
  rw [Bool.eq_iff_iff, startsAt_iff, beginsPrinting_iff]
  exact exists_congr fun used => describes_printing place used

/-- Only `System.out.println` has a character behind its first that output begins with, and there
stands `println`, which is no call of `print`. -/
theorem printing_apart : printing.Apart := by
  intro place used taken
  obtain ⟨⟨behind, rest⟩, isPrinting⟩ := (describes_printing place used).mp taken
  have some' : used ≠ [] := by
    rintro rfl
    cases isPrinting.head?_any
  refine ⟨some', fun count later within other also => ?_⟩
  have begins : beginsPrinting (used.drop count ++ behind) = true := by
    rw [← List.drop_append_of_le_length (Nat.le_of_lt within), rest, ← Place.after_rest,
      ← startsAt_printing, startsAt_iff]
    exact ⟨other, also⟩
  have opens : opensPrinting used[count] = true := by
    rw [List.drop_eq_getElem_cons within] at begins
    exact opens_of_beginsPrinting begins
  rw [isPrinting.drop_eq_println later within opens] at begins
  cases begins

theorem count_printing (text : List Char) : printing.count text = printingCount text := by
  have last : beginsPrinting (text.drop text.length) = false := by
    rw [List.drop_length]
    rfl
  rw [printing_apart.count_eq, Place.along, List.countP_map, Place.origin_rest, List.range_succ,
    List.countP_append, List.countP_singleton, printingCount]
  simp only [Function.comp_def, startsAt_printing, Place.after_rest, Place.origin_rest, last]
  rfl

end Pattern

/-- There is an issue for debug output if and only if something that prints begins at as many places
of the text as make one, and its description states at how many. -/
theorem Issue.debugOutput_counted (text : List Char) (least : Nat) :
    debugOutput text least =
      if least ≤ printingCount text then
        some ⟨.low, "Excessive debug output (" ++ toString (printingCount text) ++
          " instances). Remove debug logs from production code.", 1, .debugOutput⟩
      else none := by
  rw [debugOutput, Pattern.count_printing]
  rfl

example : printingCount "System.out.println(printf)".toList = 2 := by decide

end SnippetAudit
