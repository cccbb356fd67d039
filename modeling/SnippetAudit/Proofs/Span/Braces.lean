import SnippetAudit.Proofs.Span.Header

/-!
Definitions with braces, one behind the other with other text between them. The search finds exactly
these, whatever the text between them, the parameters and the bodies are made of.
-/

namespace SnippetAudit

open Text

namespace Span

variable {place start : Place} {body more : List Char}

theorem closing?_eq (rest : start.rest = body ++ '}' :: more) (plain : '}' ∉ body) :
    closing? start = some (start.after body.length) := by
  have run : start.rest.takeWhile (· != '}') = body := by
    rw [rest]
    exact takeWhile_append_cons (bne_of_not_mem plain) (by decide)
  simp only [closing?, run]
  rw [rest, List.drop_left]
  simp [Place.after, rest]

theorem lastClosing?_any {front : List Char} {index : Nat} (within : index ≤ front.length) :
    (lastClosing? (front ++ '}' :: more)).any (index ≤ ·) = true := by
  have found : ∃ behind ≤ more.length,
      (front ++ '}' :: more).reverse.findIdx? (· == '}') = some behind := by
    rw [List.reverse_append, List.reverse_cons, List.append_assoc, List.findIdx?_append]
    cases later : more.reverse.findIdx? (· == '}') with
    | some behind =>
      have bound := (List.findIdx?_eq_some_iff_findIdx_eq.mp later).1
      rw [List.length_reverse] at bound
      exact ⟨behind, by omega, rfl⟩
    | none => exact ⟨more.length, Nat.le_refl _, by simp [List.findIdx?_cons]⟩
  obtain ⟨behind, bound, value⟩ := found
  rw [lastClosing?, value]
  simp only [Option.map_some, Option.any_some, decide_eq_true_eq, List.length_append,
    List.length_cons]
  omega

theorem take_braces {lastClosing : Option Nat} {stop : Place} {later : List Site}
    (rest : stop.rest = body ++ '}' :: more) (plain : '}' ∉ body)
    (closed : lastClosing.any (stop.index ≤ ·) = true) :
    take lastClosing start ⟨.braces, stop⟩ later =
      (make? (nameIn (between start stop)) body, stop.index + body.length + 1) := by
  have inner : between stop (stop.after body.length) = body := by
    rw [between, Place.after_index, Nat.add_sub_cancel_left, rest, List.take_left]
  simp only [take, closed, if_true, closing?_eq rest plain, inner, Place.after_index]

end Span

/-- A definition with braces, and the text before it. -/
structure BraceDefinition where
  before : List Char
  name : List Char
  gap : List Char
  parameters : List Char
  space : List Char
  body : List Char
  plain : '(' ∉ before
  apart : ∀ c ∈ before.getLast?, continuesIdentifier c = false
  named : IsName name
  gapBlank : AllBlank gap
  parametersPlain : ')' ∉ parameters
  spaceBlank : AllBlank space
  bodyPlain : '}' ∉ body

namespace BraceDefinition

def header (definition : BraceDefinition) : List Char :=
  definition.name ++ definition.gap ++
    '(' :: (definition.parameters ++ ')' :: (definition.space ++ ['{']))

def text (definition : BraceDefinition) : List Char :=
  definition.before ++ definition.header ++ definition.body ++ ['}']

/-- The span of a definition, unless its body is blank. -/
def span? (definition : BraceDefinition) : Option Span :=
  if definition.body.all isBlank then none else some ⟨definition.name, trim definition.body⟩

theorem namesHeader (definition : BraceDefinition) : NamesHeader '{' definition.header :=
  ⟨_, _, _, _, rfl, definition.named, definition.gapBlank, definition.parametersPlain,
    definition.spaceBlank⟩

theorem make?_eq (definition : BraceDefinition) :
    Span.make? definition.name definition.body = definition.span? := by
  have named : definition.name.isEmpty = false := by
    simpa using definition.named.ne_nil
  have blank : (trim definition.body).isEmpty = definition.body.all isBlank := by
    rw [Bool.eq_iff_iff, List.isEmpty_iff, trim_eq_nil_iff, List.all_eq_true]
  simp only [Span.make?, span?, named, blank, Bool.false_or]

end BraceDefinition

namespace Span

variable {place : Place} {lastClosing : Option Nat}

/-- A header that starts in the text before a definition, or at the definition, is its own. -/
theorem scan_at_brace_header (definition : BraceDefinition) {later : List Char} {header : Header}
    (rest : place.rest = definition.text ++ later)
    (closed : ∀ index < place.index + definition.text.length,
      lastClosing.any (index ≤ ·) = true)
    (starts : (site place).header = some header) :
    scan Pattern.braceHeader Pattern.indentHeader Pattern.blockEnd lastClosing place =
      definition.span?.toList ++
        scan Pattern.braceHeader Pattern.indentHeader Pattern.blockEnd lastClosing
          (place.after definition.text.length) := by
  have plain : '(' ∉ definition.before ++ definition.name ++ definition.gap := by
    simp only [List.mem_append, not_or]
    exact ⟨⟨definition.plain, definition.named.no_parenthesis⟩,
      definition.gapBlank.no_parenthesis⟩
  have framed : place.rest = definition.before ++ definition.name ++ definition.gap ++
      '(' :: (definition.parameters ++
        ')' :: (definition.space ++ '{' :: (definition.body ++ '}' :: later))) := by
    rw [rest, BraceDefinition.text, BraceDefinition.header]
    simp
  obtain ⟨stop, ⟨_, style⟩ | ⟨colon, _⟩⟩ := header_eq_of_framed starts framed plain
    definition.parametersPlain definition.spaceBlank (by decide)
  · have whole : definition.before ++ definition.name ++ definition.gap ++
        '(' :: (definition.parameters ++ ')' :: (definition.space ++ ['{'])) =
        definition.before ++ definition.header := by
      simp [BraceDefinition.header]
    rw [whole] at stop
    have total : definition.text.length =
        (definition.before ++ definition.header).length + definition.body.length + 1 := by
      simp [BraceDefinition.text, Nat.add_assoc]
    have stopRest : header.stop.rest = definition.body ++ '}' :: later := by
      rw [stop, Place.after_rest, rest, BraceDefinition.text]
      simp
    have stopIndex : header.stop.index =
        place.index + (definition.before ++ definition.header).length := by
      rw [stop, Place.after_index]
    have name : nameIn (between place header.stop) = definition.name := by
      have stretch : between place header.stop = definition.before ++ definition.name ++
          definition.gap ++
            '(' :: (definition.parameters ++ ')' :: (definition.space ++ ['{'])) := by
        rw [between, stopIndex, Nat.add_sub_cancel_left, rest, BraceDefinition.text, whole,
          List.append_assoc, List.append_assoc, List.take_left]
      rw [stretch, nameIn_eq definition.named definition.apart definition.plain
        definition.gapBlank]
    have taken : take lastClosing place header (sitesFrom Pattern.braceHeader
        Pattern.indentHeader Pattern.blockEnd place) =
        (definition.span?, place.index + definition.text.length) := by
      obtain ⟨_, _⟩ := header
      subst style
      rw [take_braces stopRest definition.bodyPlain (closed _ (by omega)), name,
        definition.make?_eq, stopIndex, total]
      congr 1
      omega
    exact scan_of_header starts taken (by omega) (by rw [rest]; simp)
  · exact absurd colon (by decide)

/-- A definition is found from the place at which the text before it begins. At which place of that
text its header starts depends on type words there, but neither its name nor its end does. -/
theorem scan_brace_definition (definition : BraceDefinition) {later : List Char}
    (rest : place.rest = definition.text ++ later)
    (closed : ∀ index < place.index + definition.text.length,
      lastClosing.any (index ≤ ·) = true) :
    scan Pattern.braceHeader Pattern.indentHeader Pattern.blockEnd lastClosing place =
      definition.span?.toList ++
        scan Pattern.braceHeader Pattern.indentHeader Pattern.blockEnd lastClosing
          (place.after definition.text.length) := by
  generalize text : definition.before = before
  induction before generalizing place definition with
  | nil =>
    cases starts : (site place).header with
    | some header => exact scan_at_brace_header definition rest closed starts
    | none =>
      have inside : definition.header <+: place.rest := by
        rw [rest, BraceDefinition.text, text]
        simp
      exact absurd (Pattern.takes_braceHeader.mpr ⟨inside, [], definition.header, rfl,
        Pattern.takes_perhaps.mpr (Or.inr rfl), definition.namesHeader⟩)
        ((header_eq_none_iff.mp starts).1 definition.header)
  | cons c before ih =>
    cases starts : (site place).header with
    | some header => exact scan_at_brace_header definition rest closed starts
    | none =>
      -- the same definition behind one character less
      let shorter : BraceDefinition := { definition with
        before
        plain := fun member => definition.plain (text ▸ List.mem_cons_of_mem c member)
        apart := by
          intro d final
          refine definition.apart d ?_
          rw [text, List.getLast?_cons, final]
          rfl }
      have whole : definition.text = c :: shorter.text := by
        simp [BraceDefinition.text, BraceDefinition.header, shorter, text]
      have behind : (place.after 1).rest = shorter.text ++ later := by
        rw [Place.after_rest, rest, whole]
        rfl
      have found := ih shorter behind (by
        intro index before
        refine closed index ?_
        rw [Place.after_index] at before
        rw [whole, List.length_cons]
        omega) rfl
      rw [scan_of_none starts (by rw [rest, whole]; simp), found, Place.after_after, whole,
        List.length_cons, Nat.add_comm]
      rfl

theorem scan_brace_definitions (definitions : List BraceDefinition) (front : List Char)
    {tail : List Char} (plain : '(' ∉ tail) (index : place.index = front.length)
    (rest : place.rest = definitions.flatMap BraceDefinition.text ++ tail) :
    scan Pattern.braceHeader Pattern.indentHeader Pattern.blockEnd
        (lastClosing? (front ++ place.rest)) place =
      definitions.filterMap BraceDefinition.span? := by
  induction definitions generalizing front place with
  | nil =>
    apply scan_eq_nil
    intro count _
    refine header_eq_none_of_plain fun member => plain ?_
    rw [Place.after_rest, rest, List.flatMap_nil, List.nil_append] at member
    exact List.mem_of_mem_drop member
  | cons definition definitions ih =>
    have here : place.rest =
        definition.text ++ (definitions.flatMap BraceDefinition.text ++ tail) := by
      rw [rest, List.flatMap_cons, List.append_assoc]
    have closed : ∀ index < place.index + definition.text.length,
        (lastClosing? (front ++ place.rest)).any (index ≤ ·) = true := by
      intro other before
      have cut : front ++ place.rest =
          (front ++ definition.before ++ definition.header ++ definition.body) ++
            '}' :: (definitions.flatMap BraceDefinition.text ++ tail) := by
        rw [here, BraceDefinition.text]
        simp
      rw [cut]
      apply lastClosing?_any
      simp only [BraceDefinition.text, List.length_append, List.length_singleton] at before ⊢
      omega
    have onward : front ++ place.rest =
        (front ++ definition.text) ++ (place.after definition.text.length).rest := by
      rw [Place.after_rest, here, List.drop_left, List.append_assoc]
    rw [scan_brace_definition definition here closed, onward, ih]
    · cases found : definition.span? <;> simp [found]
    · rw [Place.after_index, index, List.length_append]
    · rw [Place.after_rest, here, List.drop_left]

end Span

/-- Behind one another, with a text behind the last that opens no parenthesis, definitions with
braces are found exactly as they were written: those with a body that is not blank, in order. -/
theorem extract_brace_definitions (definitions : List BraceDefinition) {tail : List Char}
    (plain : '(' ∉ tail) :
    Span.extract (definitions.flatMap BraceDefinition.text ++ tail) =
      definitions.filterMap BraceDefinition.span? := by
  rw [Span.extract_eq_scan]
  exact @Span.scan_brace_definitions (Place.origin _) definitions [] tail plain rfl rfl

/-- Three definitions, one of them with a blank body, behind type words and a comment. -/
def sampleBraces : List BraceDefinition :=
  [⟨"int ".toList, ['f'], [], "int a".toList, [' '], " return $f(a); ".toList,
      by decide, by simp; decide, by decide, by decide, by decide, by decide, by decide⟩,
    ⟨"\n// class \x7b".toList ++ ['\n', '*'], "go_1".toList, ['\n'], "(x".toList, ['\t'], [' '],
      by decide, by simp; decide, by decide, by decide, by decide, by decide, by decide⟩,
    ⟨[' '], "int".toList, [' '], [], [], " def f(x): \x7b".toList,
      by decide, by simp; decide, by decide, by decide, by decide, by decide, by decide⟩]

theorem extract_sampleBraces :
    '(' ∉ ['}', '\n'] ∧
      Span.extract (sampleBraces.flatMap BraceDefinition.text ++ ['}', '\n']) =
        [⟨['f'], "return $f(a);".toList⟩, ⟨"int".toList, "def f(x): \x7b".toList⟩] :=
  ⟨by decide, (extract_brace_definitions sampleBraces (by decide)).trans (by decide)⟩

end SnippetAudit
