import SnippetAudit.Proofs.Span.Braces
import SnippetAudit.Proofs.Span.Calls

/-!
Names of spans and calls of them. Every span is named by an identifier: letters, digits, underscores
and dollar signs. The search for calls counts all of these as parts of longer names but for the
dollar sign, so what it takes for a call stands alone or has a dollar sign before it.
-/

namespace SnippetAudit

open Text

/-- A character of identifiers joins on to names, unless it is a dollar sign. -/
theorem joinsName_of_continuesIdentifier {c : Char} (goesOn : continuesIdentifier c = true)
    (noDollar : c ≠ '$') : Span.joinsName c = true := by
  have low : c.toNat < 128 := by
    simp only [continuesIdentifier, startsIdentifier, Bool.or_eq_true, Bool.and_eq_true,
      decide_eq_true_eq, beq_iff_eq, Char.le_def, UInt32.le_iff_toNat_le] at goesOn
    rcases goesOn with (((letter | letter) | underscore) | dollar) | digit
    · exact Nat.lt_of_le_of_lt letter.2 (by decide)
    · exact Nat.lt_of_le_of_lt letter.2 (by decide)
    · rw [underscore]; decide
    · exact absurd dollar noDollar
    · exact Nat.lt_of_le_of_lt digit.2 (by decide)
  rw [continuesIdentifier, startsIdentifier] at goesOn
  rw [Span.joinsName, isAlphanumeric, if_pos low, isPlainWord]
  grind

theorem AllBlank.not_continues {text : List Char} (blanks : AllBlank text) :
    ∀ c ∈ text, continuesIdentifier c = false := by
  intro c member
  cases goesOn : continuesIdentifier c with
  | false => rfl
  | true => exact absurd (blanks c member) (by simp [isBlank_of_continuesIdentifier goesOn])

/-- Nothing joins on to an identifier behind characters of no identifier. -/
theorem apart_append {front back : List Char} (some' : back ≠ [])
    (apart : ∀ c ∈ back, continuesIdentifier c = false) :
    ∀ c ∈ (front ++ back).getLast?, continuesIdentifier c = false := by
  intro c last
  rw [List.getLast?_append, List.getLast?_eq_some_getLast some', Option.some_or,
    Option.mem_some_iff] at last
  exact apart c (last ▸ List.getLast_mem some')

theorem Pattern.apart_of_takes_typeWord {place : Place} {used : List Char}
    (taken : typeWord.Takes place used) :
    ∀ c ∈ used.getLast?, continuesIdentifier c = false := by
  obtain ⟨_, _, word, _, c, gap, star, space, rfl, blank, gapBlank, starred, spaceBlank⟩ :=
    takes_typeWord.mp taken
  have begun : AllBlank (c :: gap) := List.forall_mem_cons.mpr ⟨blank, gapBlank⟩
  rw [List.append_assoc, List.append_assoc]
  refine apart_append (by simp) fun d member => ?_
  rcases List.mem_append.mp member with inGap | behind
  · exact begun.not_continues d inGap
  · rcases List.mem_append.mp behind with inStar | inSpace
    · rcases starred with rfl | rfl
      · rw [List.mem_singleton.mp inStar]
        decide
      · cases inStar
    · exact spaceBlank.not_continues d inSpace

theorem NamesHeader.isName_nameIn {last : Char} {front back : List Char}
    (header : NamesHeader last back) (plain : '(' ∉ front)
    (apart : ∀ c ∈ front.getLast?, continuesIdentifier c = false) :
    IsName (Span.nameIn (front ++ back)) := by
  obtain ⟨name, gap, inner, space, rfl, named, gapBlank, -, -⟩ := header
  have whole : front ++ (name ++ gap ++ '(' :: (inner ++ ')' :: (space ++ [last]))) =
      front ++ name ++ gap ++ '(' :: (inner ++ ')' :: (space ++ [last])) := by
    simp only [List.append_assoc]
  rw [whole, nameIn_eq named apart plain gapBlank]
  exact named

theorem isName_of_takes_braceHeader {place : Place} {used : List Char}
    (taken : Pattern.braceHeader.Takes place used) : IsName (Span.nameIn used) := by
  obtain ⟨-, front, back, rfl, typed, header⟩ := Pattern.takes_braceHeader.mp taken
  rcases Pattern.takes_perhaps.mp typed with word | rfl
  · exact header.isName_nameIn (Pattern.no_parenthesis_of_takes_typeWord word)
      (Pattern.apart_of_takes_typeWord word)
  · exact header.isName_nameIn List.not_mem_nil (fun c none => by cases none)

theorem isName_of_takes_indentHeader {place : Place} {used : List Char}
    (taken : Pattern.indentHeader.Takes place used) : IsName (Span.nameIn used) := by
  obtain ⟨-, -, c, gap, back, rfl, blank, gapBlank, header⟩ := Pattern.takes_indentHeader.mp taken
  have begun : AllBlank (c :: gap) := List.forall_mem_cons.mpr ⟨blank, gapBlank⟩
  refine header.isName_nameIn ?_ (apart_append (by simp) begun.not_continues)
  rw [List.mem_append, not_or]
  exact ⟨by decide, begun.no_parenthesis⟩

namespace Span

variable {lastClosing : Option Nat} {resume : Nat} {span : Span} {text : List Char}

theorem between_after {place : Place} {used : List Char} (inside : used <+: place.rest) :
    between place (place.after used.length) = used := by
  obtain ⟨more, rest⟩ := inside
  rw [between, Place.after_index, Nat.add_sub_cancel_left, ← rest, List.take_left]

/-- The name in a header that starts at a place is an identifier. -/
theorem isName_of_header {place : Place} {header : Header}
    (starts : (site place).header = some header) :
    IsName (nameIn (between place header.stop)) := by
  obtain ⟨used, stop, ⟨-, taken⟩ | ⟨-, taken⟩⟩ := exists_takes_of_header starts
  · rw [stop, between_after taken.1]
    exact isName_of_takes_braceHeader taken
  · rw [stop, between_after taken.1]
    exact isName_of_takes_indentHeader taken

/-- What the search finds, it takes from a header at one of the sites. -/
theorem exists_take_of_mem_collect {coming : List Site}
    (found : span ∈ collect lastClosing resume [] coming) :
    ∃ site later header, site :: later <:+ coming ∧ site.header = some header ∧
      (take lastClosing site.place header (site :: later)).1 = some span := by
  induction coming generalizing resume with
  | nil => cases found
  | cons first coming ih =>
    have onward {resume : Nat} (found : span ∈ collect lastClosing resume [] coming) :
        ∃ site later header, site :: later <:+ first :: coming ∧ site.header = some header ∧
          (take lastClosing site.place header (site :: later)).1 = some span := by
      obtain ⟨site, later, header, part, taken⟩ := ih found
      exact ⟨site, later, header, part.trans (List.suffix_cons first coming), taken⟩
    cases starts : first.header with
    | none =>
      simp only [collect, starts] at found
      exact onward found
    | some header =>
      simp only [collect, starts] at found
      split at found
      · exact onward found
      · rw [collect_found, List.append_nil, List.mem_append, List.mem_reverse,
          Option.mem_toList] at found
        rcases found with here | later
        · exact ⟨first, coming, header, List.suffix_rfl, starts, here⟩
        · exact onward later

theorem make?_eq_some_iff {name body : List Char} :
    make? name body = some span ↔ name ≠ [] ∧ trim body ≠ [] ∧ span = ⟨name, trim body⟩ := by
  rw [make?]
  split
  · rename_i empty
    rw [Bool.or_eq_true, List.isEmpty_iff, List.isEmpty_iff] at empty
    simp only [reduceCtorEq, false_iff, not_and]
    exact fun named filled => absurd empty (not_or.mpr ⟨named, filled⟩)
  · rename_i full
    rw [Bool.or_eq_true, List.isEmpty_iff, List.isEmpty_iff, not_or] at full
    rw [Option.some.injEq, and_iff_right full.1, and_iff_right full.2, eq_comm]

theorem name_of_take {place : Place} {header : Header} {later : List Site}
    (taken : (take lastClosing place header later).1 = some span) :
    span.name = nameIn (between place header.stop) := by
  rw [take] at taken
  split at taken
  · dsimp only at taken
    split at taken
    · obtain ⟨-, -, rfl⟩ := make?_eq_some_iff.mp taken
      rfl
    · cases taken
  · obtain ⟨-, -, rfl⟩ := make?_eq_some_iff.mp taken
    rfl

theorem isName_of_mem_extract (found : span ∈ extract text) : IsName span.name := by
  rw [extract, sites_eq] at found
  obtain ⟨_, later, header, part, starts, taken⟩ := exists_take_of_mem_collect found
  obtain ⟨place, -, rfl⟩ := List.mem_map.mp (part.subset List.mem_cons_self)
  rw [name_of_take taken]
  exact isName_of_header starts

/-- The body calls the name, and no longer identifier that ends in it: before the name there is no
character of an identifier. -/
def CallsAlone (span : Span) : Prop :=
  ∃ front gap rest, span.body = front ++ span.name ++ gap ++ '(' :: rest ∧
    (∀ c ∈ front.getLast?, continuesIdentifier c = false) ∧ AllBlank gap

/-- The body calls an identifier that is the name behind a dollar sign, or ends so. -/
def CallsBehindDollar (span : Span) : Prop :=
  ∃ front gap rest, span.body = front ++ '$' :: span.name ++ gap ++ '(' :: rest ∧ AllBlank gap

theorem callAfter_of_callsItself (calls : span.callsItself = true) :
    CallAfter span.name none 0 span.body := by
  rw [callsItself, Bool.and_eq_true] at calls
  exact callAfter_of_callsIn calls.2

/-- What is taken for recursion is a call of the name alone, or of the name behind a dollar sign. -/
theorem alone_or_behind_dollar (calls : span.callsItself = true) :
    span.CallsAlone ∨ span.CallsBehindDollar := by
  obtain ⟨front, _, whole, -, apart, gap, rest, rfl, gapBlank⟩ := callAfter_of_callsItself calls
  rw [Option.or_none, Option.any_eq_false] at apart
  by_cases dollar : front.getLast? = some '$'
  · obtain ⟨before, rfl⟩ := List.getLast?_eq_some_iff.mp dollar
    exact Or.inr ⟨before, gap, rest, by simpa using whole, gapBlank⟩
  · refine Or.inl ⟨front, gap, rest, by simpa using whole, fun c last => ?_, gapBlank⟩
    cases goesOn : continuesIdentifier c with
    | false => rfl
    | true =>
      have joined := apart c last
      have other : c ≠ '$' := fun same => dollar (same ▸ last)
      rw [joinsName_of_continuesIdentifier goesOn other] at joined
      cases joined

/-- A call behind a dollar sign is taken for recursion, where the name itself has none. -/
theorem callsItself_of_behind_dollar (named : IsName span.name) (plain : '$' ∉ span.name)
    (behind : span.CallsBehindDollar) : span.callsItself = true := by
  obtain ⟨front, gap, rest, whole, gapBlank⟩ := behind
  have joins : ∀ c ∈ span.name, joinsName c = true := fun c member =>
    joinsName_of_continuesIdentifier (named.continues c member) fun same => plain (same ▸ member)
  have full : span.name.isEmpty = false := by simpa using named.ne_nil
  rw [callsItself, full, Bool.not_false, Bool.true_and]
  refine callsIn_of_callAfter joins ⟨front ++ ['$'], span.name ++ gap ++ '(' :: rest, ?_,
    Nat.zero_le _, ?_, gap, rest, rfl, gapBlank⟩
  · simpa using whole
  · rw [List.getLast?_append, List.getLast?_singleton, Option.some_or, Option.some_or]
    decide

/-- A span of a text is named by an identifier, and it calls itself only by a call of that
identifier alone or behind a dollar sign. A dollar sign belongs to identifiers too, so the second
kind calls another name; it is taken for recursion all the same. -/
theorem calls_of_mem_extract (found : span ∈ extract text) :
    IsName span.name ∧
      (span.callsItself = true → span.CallsAlone ∨ span.CallsBehindDollar) ∧
      ('$' ∉ span.name → span.CallsBehindDollar → span.callsItself = true) := by
  have named := isName_of_mem_extract found
  exact ⟨named, alone_or_behind_dollar, callsItself_of_behind_dollar named⟩

/-- A definition of `foo` that calls `$foo` only. -/
def dollarText : List Char :=
  "foo() { $foo() }".toList

theorem mem_extract_dollarText : ⟨"foo".toList, "$foo()".toList⟩ ∈ extract dollarText := by
  let definition : BraceDefinition :=
    ⟨[], "foo".toList, [], [], [' '], " $foo() ".toList, by decide, by simp, by decide, by decide,
      by decide, by decide, by decide⟩
  have whole : dollarText = [definition].flatMap BraceDefinition.text ++ [] := by decide
  have scanned := @scan_brace_definitions (Place.origin dollarText) [definition] [] []
    List.not_mem_nil rfl whole
  rw [List.nil_append, Place.origin_rest] at scanned
  rw [extract_eq_scan, scanned]
  decide

/-- It is taken for recursion although `foo` is called nowhere. -/
theorem calls_of_dollarText :
    let span : Span := ⟨"foo".toList, "$foo()".toList⟩
    span ∈ extract dollarText ∧ span.callsItself = true ∧ ¬span.CallsAlone := by
  obtain ⟨-, -, taken⟩ := calls_of_mem_extract mem_extract_dollarText
  refine ⟨mem_extract_dollarText, taken (by decide) ⟨[], [], [')'], rfl, by decide⟩, ?_⟩
  rintro ⟨front, gap, rest, whole, apart, -⟩
  cases front with
  | nil => exact absurd (List.cons.inj whole).1 (by decide)
  | cons c front =>
    obtain ⟨rfl, behind⟩ := List.cons.inj whole
    cases front with
    | nil => exact absurd (apart '$' rfl) (by decide)
    | cons d front =>
      -- only the first of the characters behind the dollar sign is an `f`
      have later : 'f' ∈ "oo()".toList := by
        rw [show "oo()".toList = _ from (List.cons.inj behind).2]
        simp
      exact absurd later (by decide)

end Span

end SnippetAudit
