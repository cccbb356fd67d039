import SnippetAudit.Proofs.Span.Dedent
import SnippetAudit.Proofs.Span.Header
import SnippetAudit.Proofs.Text.Lines

/-!
Definitions with indentation, one behind the other on lines of their own. The search finds exactly
these: a body ends at the newline before the next definition, whatever it is made of.
-/

namespace SnippetAudit

open Text

namespace Pattern

variable {place : Place} {used : List Char}

/-- A body with indentation ends at a newline before a `def`, a call, a class or a decorator. -/
theorem describes_blockEnd :
    blockEnd.Describes fun used => ∃ back, used = '\n' :: back ∧
      (back = ['d', 'e', 'f'] ∨ (∃ name, back = name ++ ['('] ∧ IsName name) ∨
        (∃ c, back = ['c', 'l', 'a', 's', 's', c] ∧ isBlank c = true) ∨ back = ['@']) := by
  intro place used
  have parts := (describes_char '\n').next ((describes_exactly ["def"]).either
    ((describes_identifier.next (describes_char '(')).either
      (((describes_exactly ["class"]).next (describes_one isBlank)).either (describes_char '@'))))
  simp only [blockEnd, choice]
  rw [parts place used]
  refine and_congr_right fun _ => ?_
  constructor
  · rintro ⟨_, back, rfl, rfl, anew⟩
    refine ⟨back, rfl, ?_⟩
    rcases anew with ⟨word, listed, rfl⟩ | ⟨name, _, rfl, named, rfl⟩ |
      ⟨_, _, rfl, ⟨word, listed, rfl⟩, c, rfl, blank⟩ | rfl
    · rw [List.mem_singleton.mp listed]
      exact Or.inl rfl
    · exact Or.inr (Or.inl ⟨name, rfl, named⟩)
    · rw [List.mem_singleton.mp listed]
      exact Or.inr (Or.inr (Or.inl ⟨c, rfl, blank⟩))
    · exact Or.inr (Or.inr (Or.inr rfl))
  · rintro ⟨back, rfl, anew⟩
    refine ⟨['\n'], back, rfl, rfl, ?_⟩
    rcases anew with rfl | ⟨name, rfl, named⟩ | ⟨c, rfl, blank⟩ | rfl
    · exact Or.inl ⟨"def", List.mem_singleton_self _, rfl⟩
    · exact Or.inr (Or.inl ⟨name, ['('], rfl, named, rfl⟩)
    · exact Or.inr (Or.inr (Or.inl ⟨['c', 'l', 'a', 's', 's'], [c], rfl,
        ⟨"class", List.mem_singleton_self _, rfl⟩, c, rfl, blank⟩))
    · exact Or.inr (Or.inr (Or.inr rfl))

theorem exists_of_takes_blockEnd (taken : blockEnd.Takes place used) :
    ∃ c more, place.rest = '\n' :: c :: more ∧ isBlank c = false := by
  obtain ⟨⟨later, rest⟩, back, rfl, anew⟩ := (describes_blockEnd place used).mp taken
  rw [← rest]
  rcases anew with rfl | ⟨name, rfl, c, more, rfl, begins, _⟩ | ⟨c, rfl, _⟩ | rfl
  · exact ⟨'d', _, rfl, by decide⟩
  · exact ⟨c, _, rfl,
      isBlank_of_continuesIdentifier (continuesIdentifier_of_startsIdentifier begins)⟩
  · exact ⟨'c', _, rfl, by decide⟩
  · exact ⟨'@', _, rfl, by decide⟩

end Pattern

namespace Span

variable {place : Place} {block : List Char}

theorem ends_iff : (site place).ends = true ↔ ∃ used, Pattern.blockEnd.Takes place used := by
  cases first : (Pattern.blockEnd.ends place).head? with
  | none =>
    have never := Pattern.head?_ends_eq_none_iff.mp first
    simp [siteAt, first, never]
  | some stop =>
    obtain ⟨used, taken, _⟩ := Pattern.exists_takes_of_head? first
    simp only [siteAt, first, Option.isSome_some, true_iff]
    exact ⟨used, taken⟩

/-- The characters of a block that are not blank are left when it is dedented. -/
theorem mem_dedent_iff {c : Char} (solid : isBlank c = false) : c ∈ dedent block ↔ c ∈ block := by
  have noNewline : c ≠ '\n' := by
    rintro rfl
    revert solid
    decide
  have inLines (text : List Char) : (∃ line ∈ lines text, c ∈ line) ↔ c ∈ text := by
    rw [lines, exists_mem_pieces_iff, and_iff_left noNewline]
  rw [← inLines, ← inLines block, lines_dedent]
  constructor
  · rintro ⟨_, listed, member⟩
    obtain ⟨line, inBlock, rfl⟩ := List.mem_map.mp listed
    exact ⟨line, inBlock, (mem_outdent_iff solid _).mp member⟩
  · rintro ⟨line, inBlock, member⟩
    exact ⟨_, List.mem_map_of_mem inBlock, (mem_outdent_iff solid _).mpr member⟩

theorem trim_dedent_eq_nil_iff : trim (dedent block) = [] ↔ AllBlank block := by
  rw [trim_eq_nil_iff]
  constructor
  · intro all c member
    cases solid : isBlank c with
    | true => rfl
    | false => rw [← solid]; exact all c ((mem_dedent_iff solid).mpr member)
  · intro all c member
    cases solid : isBlank c with
    | true => rfl
    | false => rw [← solid]; exact all c ((mem_dedent_iff solid).mp member)

end Span

/-- A definition with indentation. No line of its block but the first starts with anything but a
blank. -/
structure IndentedDefinition where
  gap : List Char
  name : List Char
  space : List Char
  parameters : List Char
  colonGap : List Char
  block : List Char
  apart : gap ≠ []
  gapBlank : AllBlank gap
  named : IsName name
  spaceBlank : AllBlank space
  parametersPlain : ')' ∉ parameters
  colonGapBlank : AllBlank colonGap
  inside : ∀ index < block.length, block[index]? = some '\n' →
    ∀ c ∈ block[index + 1]?, isBlank c = true

namespace IndentedDefinition

/-- A block whose lines start as they must, told by its neighbouring characters. -/
theorem inside_of_zip {block : List Char}
    (each : (block.zip block.tail).all (fun pair => pair.1 != '\n' || isBlank pair.2) = true) :
    ∀ index < block.length, block[index]? = some '\n' →
      ∀ c ∈ block[index + 1]?, isBlank c = true := by
  intro index _ newline c next
  have pair : (block.zip block.tail)[index]? = some ('\n', c) := by
    rw [List.getElem?_zip_eq_some, List.getElem?_tail]
    exact ⟨newline, next⟩
  exact List.all_eq_true.mp each _ (List.mem_of_getElem? pair)

def header (definition : IndentedDefinition) : List Char :=
  ['d', 'e', 'f'] ++ definition.gap ++ definition.name ++ definition.space ++
    '(' :: (definition.parameters ++ ')' :: (definition.colonGap ++ [':']))

def text (definition : IndentedDefinition) : List Char :=
  definition.header ++ definition.block

/-- The span of a definition, unless its block is blank. -/
def span? (definition : IndentedDefinition) : Option Span :=
  if definition.block.all isBlank then none
  else some ⟨definition.name, trim (Span.dedent definition.block)⟩

theorem make?_eq (definition : IndentedDefinition) :
    Span.make? definition.name (Span.dedent definition.block) = definition.span? := by
  have named : definition.name.isEmpty = false := by
    simpa using definition.named.ne_nil
  have blank : (trim (Span.dedent definition.block)).isEmpty = definition.block.all isBlank := by
    rw [Bool.eq_iff_iff, List.isEmpty_iff, Span.trim_dedent_eq_nil_iff, List.all_eq_true]
    exact Iff.rfl
  simp only [Span.make?, span?, named, blank, Bool.false_or]

theorem takes_header (definition : IndentedDefinition) {place : Place}
    (inside : definition.header <+: place.rest) (edge : place.isEdge = true) :
    Pattern.indentHeader.Takes place definition.header := by
  obtain ⟨c, gap, cut⟩ := List.exists_cons_of_ne_nil definition.apart
  have blanks := definition.gapBlank
  rw [cut] at blanks
  refine Pattern.takes_indentHeader.mpr ⟨inside, edge, c, gap, definition.name ++
    definition.space ++
      '(' :: (definition.parameters ++ ')' :: (definition.colonGap ++ [':'])), ?_,
    blanks c List.mem_cons_self, fun d member => blanks d (List.mem_cons_of_mem c member),
    definition.name, definition.space, definition.parameters, definition.colonGap, rfl,
    definition.named, definition.spaceBlank, definition.parametersPlain,
    definition.colonGapBlank⟩
  simp [header, cut]

theorem exists_join_eq (definition : IndentedDefinition) (later : List IndentedDefinition) :
    ∃ more, join ['\n'] ((definition :: later).map text) = 'd' :: 'e' :: 'f' :: more := by
  cases later with
  | nil => exact ⟨_, by simp [join, text, header]; rfl⟩
  | cons second later =>
    rw [List.map_cons, List.map_cons, join_cons_cons]
    exact ⟨_, by simp [text, header]; rfl⟩

/-- Inside the block of a definition, and at its end before another newline, no body ends. -/
theorem ends_eq_false (definition : IndentedDefinition) {place : Place} {tail : List Char}
    (passed : Nat) (rest : place.rest = definition.block.drop passed ++ tail)
    (within : passed < definition.block.length)
    (onward : ∀ c ∈ tail.head?, c = '\n') : (Span.site place).ends = false := by
  rw [← Bool.not_eq_true, Span.ends_iff]
  rintro ⟨used, taken⟩
  obtain ⟨c, more, atNewline, solid⟩ := Pattern.exists_of_takes_blockEnd taken
  rw [rest, List.drop_eq_getElem_cons within] at atNewline
  have newline : definition.block[passed] = '\n' := (List.cons.inj atNewline).1
  have behind : definition.block.drop (passed + 1) ++ tail = c :: more :=
    (List.cons.inj atNewline).2
  have first : definition.block[passed]? = some '\n' := by
    rw [List.getElem?_eq_getElem within, newline]
  have blank : isBlank c = true := by
    by_cases last : passed + 1 < definition.block.length
    · rw [List.drop_eq_getElem_cons last] at behind
      obtain ⟨second, _⟩ := List.cons.inj behind
      refine definition.inside passed within first c ?_
      rw [List.getElem?_eq_getElem last, second]
      rfl
    · rw [List.drop_eq_nil_of_le (by omega), List.nil_append] at behind
      rw [onward c (by rw [behind]; rfl)]
      decide
  rw [solid] at blank
  exact absurd blank (by decide)

end IndentedDefinition

namespace Span

variable {place : Place} {lastClosing : Option Nat} {tail : List Char}

/-- The sites of a search, with the patterns of definitions. -/
abbrev sitesOf (place : Place) : List Site :=
  sitesFrom Pattern.braceHeader Pattern.indentHeader Pattern.blockEnd place

theorem find?_ends (definition : IndentedDefinition) (rest : place.rest = definition.text ++ tail)
    (onward : tail = [] ∨ ['\n', 'd', 'e', 'f'] <+: tail) :
    (sitesOf place).find? (fun site =>
        place.index + definition.header.length ≤ site.place.index && site.ends) =
      if tail = [] then none else some (site (place.after definition.text.length)) := by
  have total : definition.text.length = definition.header.length + definition.block.length := by
    rw [IndentedDefinition.text, List.length_append]
  have newline : ∀ c ∈ tail.head?, c = '\n' := by
    intro c first
    rcases onward with rfl | ⟨later, rfl⟩
    · simp at first
    · simpa using first.symm
  have before : ∀ found ∈ (List.range definition.text.length).map place.after,
      ¬ (place.index + definition.header.length ≤ (site found).place.index &&
        (site found).ends) = true := by
    intro found member
    obtain ⟨passed, short, rfl⟩ := List.mem_map.mp member
    rw [List.mem_range] at short
    rw [Bool.and_eq_true, decide_eq_true_eq, not_and, Bool.not_eq_true]
    intro behind
    have late : definition.header.length ≤ passed := by
      have index : (site (place.after passed)).place.index = place.index + passed := rfl
      omega
    refine definition.ends_eq_false (passed - definition.header.length) ?_ (by omega) newline
    rw [Place.after_rest, rest, IndentedDefinition.text, List.append_assoc, List.drop_append,
      List.drop_eq_nil_of_le late, List.nil_append, List.drop_append_of_le_length (by omega)]
  have within : definition.text.length ≤ place.rest.length := by
    rw [rest, List.length_append]
    omega
  have stopRest : (place.after definition.text.length).rest = tail := by
    rw [Place.after_rest, rest, List.drop_left]
  rw [sitesOf, sitesFrom, Place.along_split place within, List.map_append, List.find?_append,
    List.find?_eq_none.mpr (by
      intro found member
      obtain ⟨place', listed, rfl⟩ := List.mem_map.mp member
      exact before place' listed), Option.none_or, ← sitesFrom, sitesFrom_eq_cons, stopRest]
  rcases onward with rfl | inside
  · have closed : (site (place.after definition.text.length)).ends = false := by
      rw [← Bool.not_eq_true, ends_iff]
      rintro ⟨used, taken⟩
      obtain ⟨c, more, atNewline, _⟩ := Pattern.exists_of_takes_blockEnd taken
      rw [stopRest] at atNewline
      exact List.cons_ne_nil _ _ atNewline.symm
    simp [closed]
  · have opened : (site (place.after definition.text.length)).ends = true := by
      refine ends_iff.mpr ⟨['\n', 'd', 'e', 'f'], (Pattern.describes_blockEnd _ _).mpr ⟨?_,
        ['d', 'e', 'f'], rfl, Or.inl rfl⟩⟩
      rw [stopRest]
      exact inside
    have nonempty : tail ≠ [] := by
      rintro rfl
      simpa using List.prefix_nil.mp inside
    have index : place.index + definition.header.length ≤
        (site (place.after definition.text.length)).place.index := by
      have value : (site (place.after definition.text.length)).place.index =
        place.index + definition.text.length := rfl
      omega
    simp [opened, nonempty, index]

/-- A header with indentation takes the text up to the first place behind it where a body ends. -/
theorem take_indentation {start stop : Place} {later : List Site} {body : List Char}
    (bounded : (match later.find? (fun site =>
        stop.index ≤ site.place.index && site.ends) with
      | some site => between stop site.place
      | none => stop.rest) = body) :
    take lastClosing start ⟨.indentation, stop⟩ later =
      (make? (nameIn (between start stop)) (dedent body), stop.index + body.length) := by
  rw [← bounded]
  rfl

/-- Where a definition stands at the start of a line, the search takes the whole of it. -/
theorem scan_indented_definition (definition : IndentedDefinition)
    (rest : place.rest = definition.text ++ tail) (edge : place.isEdge = true)
    (onward : tail = [] ∨ ['\n', 'd', 'e', 'f'] <+: tail) :
    scan Pattern.braceHeader Pattern.indentHeader Pattern.blockEnd lastClosing place =
      definition.span?.toList ++
        scan Pattern.braceHeader Pattern.indentHeader Pattern.blockEnd lastClosing
          (place.after definition.text.length) := by
  have inside : definition.header <+: place.rest := by
    rw [rest, IndentedDefinition.text, List.append_assoc]
    exact List.prefix_append _ _
  have framed : place.rest = ['d', 'e', 'f'] ++ definition.gap ++ definition.name ++
      definition.space ++ '(' :: (definition.parameters ++
        ')' :: (definition.colonGap ++ ':' :: (definition.block ++ tail))) := by
    rw [rest, IndentedDefinition.text, IndentedDefinition.header]
    simp
  have plain : '(' ∉ ['d', 'e', 'f'] ++ definition.gap := by
    rw [List.mem_append, not_or]
    exact ⟨by decide, definition.gapBlank.no_parenthesis⟩
  have frontPlain : '(' ∉ ['d', 'e', 'f'] ++ definition.gap ++ definition.name ++
      definition.space := by
    rw [List.mem_append, List.mem_append, not_or, not_or]
    exact ⟨⟨plain, definition.named.no_parenthesis⟩, definition.spaceBlank.no_parenthesis⟩
  cases starts : (site place).header with
  | none =>
    exact absurd (definition.takes_header inside edge)
      ((header_eq_none_iff.mp starts).2 definition.header)
  | some header =>
    obtain ⟨stop, ⟨brace, _⟩ | ⟨_, style⟩⟩ := header_eq_of_framed starts framed frontPlain
      definition.parametersPlain definition.colonGapBlank (by decide)
    · exact absurd brace (by decide)
    · rw [← IndentedDefinition.header] at stop
      have apart : ∀ c ∈ (['d', 'e', 'f'] ++ definition.gap).getLast?,
          continuesIdentifier c = false := by
        intro c last
        rw [List.getLast?_append, List.getLast?_eq_some_getLast definition.apart, Option.some_or,
          Option.mem_some_iff] at last
        have blank := definition.gapBlank c (last ▸ List.getLast_mem definition.apart)
        rw [← Bool.not_eq_true]
        intro goesOn
        rw [isBlank_of_continuesIdentifier goesOn] at blank
        exact absurd blank (by decide)
      have stretch : between place header.stop = definition.header := by
        rw [between, stop, Place.after_index, Nat.add_sub_cancel_left, rest,
          IndentedDefinition.text, List.append_assoc, List.take_left]
      have name : nameIn (between place header.stop) = definition.name := by
        rw [stretch, IndentedDefinition.header,
          nameIn_eq definition.named apart plain definition.spaceBlank]
      have stopRest : header.stop.rest = definition.block ++ tail := by
        rw [stop, Place.after_rest, rest, IndentedDefinition.text, List.append_assoc,
          List.drop_left]
      have total : definition.text.length =
          definition.header.length + definition.block.length := by
        rw [IndentedDefinition.text, List.length_append]
      have stopIndex : header.stop.index = place.index + definition.header.length := by
        rw [stop, Place.after_index]
      have body : (match (sitesOf place).find? (fun site =>
            header.stop.index ≤ site.place.index && site.ends) with
          | some site => between header.stop site.place
          | none => header.stop.rest) = definition.block := by
        rw [stopIndex, find?_ends definition rest onward, stopRest]
        split
        · next found closing =>
          split at closing
          · exact absurd closing (by simp)
          · rw [← Option.some.inj closing]
            simp only [siteAt, between, Place.after_index, stopIndex, stopRest, total]
            rw [show place.index + (definition.header.length + definition.block.length) -
              (place.index + definition.header.length) = definition.block.length by omega,
              List.take_left]
        · next closing =>
          split at closing
          · next empty => rw [empty, List.append_nil]
          · exact absurd closing (by simp)
      have taken : take lastClosing place header (sitesOf place) =
          (definition.span?, place.index + definition.text.length) := by
        obtain ⟨_, _⟩ := header
        subst style
        rw [take_indentation body, name, definition.make?_eq, stopIndex, total, Nat.add_assoc]
      have positive : 0 < definition.text.length := by
        have head : 0 < definition.header.length := by
          rw [IndentedDefinition.header, List.length_append]
          exact Nat.add_pos_right _ (Nat.succ_pos _)
        omega
      exact scan_of_header starts taken positive (by rw [rest, List.length_append]; omega)

theorem isEdge_of_newline {more : List Char} (rest : place.rest = '\n' :: 'd' :: more) :
    (place.after 1).isEdge = true := by
  simp only [Place.isEdge, Place.after, rest, List.take_succ_cons, List.take_zero,
    List.getLast?_singleton, Option.some_or, List.drop_succ_cons, List.drop_zero,
    List.head?_cons, Option.any_some]
  decide

/-- From the start of the first definition on, the search finds all of them. Between two of them it
passes the newline, at which no header starts. -/
theorem scan_indented_definitions (definitions : List IndentedDefinition)
    (rest : place.rest = join ['\n'] (definitions.map IndentedDefinition.text))
    (edge : place.isEdge = true) (nonempty : definitions ≠ []) :
    scan Pattern.braceHeader Pattern.indentHeader Pattern.blockEnd lastClosing place =
      definitions.filterMap IndentedDefinition.span? := by
  induction definitions generalizing place with
  | nil => exact absurd rfl nonempty
  | cons definition definitions ih =>
    cases definitions with
    | nil =>
      have whole : place.rest = definition.text ++ [] := by
        simpa [join] using rest
      have done : (place.after definition.text.length).rest = [] := by
        rw [Place.after_rest, whole, List.append_nil, List.drop_length]
      rw [scan_indented_definition definition whole edge (Or.inl rfl), scan_eq_nil]
      · cases found : definition.span? <;> simp [found]
      · intro count _
        refine header_eq_none_of_plain ?_
        rw [Place.after_rest, done, List.drop_nil]
        exact List.not_mem_nil
    | cons second later =>
      have whole : place.rest = definition.text ++
          '\n' :: join ['\n'] ((second :: later).map IndentedDefinition.text) := by
        rw [rest, List.map_cons, List.map_cons, join_cons_cons, ← List.map_cons]
        simp
      obtain ⟨more, opening⟩ := IndentedDefinition.exists_join_eq second later
      have newline : (place.after definition.text.length).rest =
          '\n' :: 'd' :: 'e' :: 'f' :: more := by
        rw [Place.after_rest, whole, List.drop_left, opening]
      have passed : (site (place.after definition.text.length)).header = none := by
        cases starts : (site (place.after definition.text.length)).header with
        | none => rfl
        | some header =>
          obtain ⟨c, _, begun, begins⟩ := exists_cons_of_header starts
          rw [newline] at begun
          rw [← (List.cons.inj begun).1] at begins
          exact absurd begins (by decide)
      have onward : ['\n', 'd', 'e', 'f'] <+:
          '\n' :: join ['\n'] ((second :: later).map IndentedDefinition.text) := by
        rw [opening]
        exact ⟨more, rfl⟩
      rw [scan_indented_definition definition whole edge (Or.inr onward),
        scan_of_none passed (by rw [newline]; exact List.cons_ne_nil _ _), ih]
      · cases found : definition.span? <;> simp [found]
      · rw [Place.after_rest, newline, opening, List.drop_one, List.tail_cons]
      · exact isEdge_of_newline newline
      · exact List.cons_ne_nil _ _

end Span

/-- Definitions with indentation on lines of their own are found exactly as they were written: those
with a block that is not blank, in order, each with its block dedented and trimmed. -/
theorem extract_indented_definitions (definitions : List IndentedDefinition) :
    Span.extract (join ['\n'] (definitions.map IndentedDefinition.text)) =
      definitions.filterMap IndentedDefinition.span? := by
  cases definitions with
  | nil =>
    rw [Span.extract_eq_scan, Span.scan_eq_nil]
    · rfl
    · intro count _
      refine Span.header_eq_none_of_plain ?_
      simp [join, Place.origin]
  | cons definition later =>
    obtain ⟨more, opening⟩ := IndentedDefinition.exists_join_eq definition later
    have edge : (Place.origin ('d' :: 'e' :: 'f' :: more)).isEdge = true := by
      simp only [Place.isEdge, Place.origin, List.head?_cons, Option.any_some]
      decide
    rw [Span.extract_eq_scan]
    refine Span.scan_indented_definitions (definition :: later) rfl ?_ (List.cons_ne_nil _ _)
    rw [opening]
    exact edge

/-- Three definitions: one with a header and braces in its block, one with a blank block, and one
with a block that starts on the line of the header. -/
def sampleIndented : List IndentedDefinition :=
  [⟨" ".toList, "f".toList, "".toList, "a".toList, "".toList,
      "\n  def g(b): \x7b\n    f(b) \x7d\n  x = 1".toList,
      by decide, by decide, by decide, by decide, by decide, by decide,
      IndentedDefinition.inside_of_zip (by decide)⟩,
    ⟨"\t".toList, "$2".toList, " ".toList, "".toList, " ".toList, "\n \n".toList,
      by decide, by decide, by decide, by decide, by decide, by decide,
      IndentedDefinition.inside_of_zip (by decide)⟩,
    ⟨" \n".toList, "go".toList, "".toList, "(x\ny".toList, "".toList, " pass\n".toList,
      by decide, by decide, by decide, by decide, by decide, by decide,
      IndentedDefinition.inside_of_zip (by decide)⟩]

/-- The header in the block is no definition of its own, and nothing is found of the second. -/
theorem extract_sampleIndented :
    Span.extract (join ['\n'] (sampleIndented.map IndentedDefinition.text)) =
      [⟨"f".toList, "def g(b): \x7b\n  f(b) \x7d\nx = 1".toList⟩, ⟨"go".toList, "pass".toList⟩] :=
  (extract_indented_definitions sampleIndented).trans (by decide)

end SnippetAudit
