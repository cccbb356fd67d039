import SnippetAudit.Proofs.Pattern.Tail
import SnippetAudit.Proofs.Text.LineEnding

/-!
Patterns and line endings. Whether a pattern has to do with line endings is told part by part: edges,
and words spelt without line breaks, have not, and blanks before a parenthesis have not. Such a
pattern is met at the same characters whether or not carriage returns stand before the newlines.
-/

namespace SnippetAudit

open Text

namespace Pattern

/-- Of a text with returns a pattern takes what it takes of the text without them, in the same order
of preference. -/
def IgnoresReturns (pattern : Pattern) : Prop :=
  ∀ afterWord rest, pattern.lengths afterWord (withReturns rest) =
    (pattern.lengths afterWord rest).map (shifted rest)

theorem endsInWord_withReturns (afterWord : Bool) (used : List Char) :
    endsInWord afterWord (withReturns used) = endsInWord afterWord used := by
  rw [endsInWord, endsInWord, getLast?_withReturns]

theorem ignoresReturns_edge : edge.IgnoresReturns := by
  intro afterWord rest
  rw [lengths, lengths, head?_withReturns_any (by decide) (by decide)]
  split <;> rfl

/-- A spelling without line breaks stands in both texts alike. -/
theorem spells_withReturns {same : Char → Char → Bool} {spelling : List Char}
    (plain : ∀ c ∈ spelling, same c '\n' = false ∧ same c '\r' = false) (rest : List Char) :
    spells same spelling (withReturns rest) = spells same spelling rest ∧
      (spells same spelling rest = true → shifted rest spelling.length = spelling.length) := by
  induction spelling generalizing rest with
  | nil => exact ⟨rfl, fun _ => rfl⟩
  | cons c spelling ih =>
    obtain ⟨⟨noNewline, noReturn⟩, others⟩ := List.forall_mem_cons.mp plain
    cases rest with
    | nil => exact ⟨rfl, fun spelt => absurd spelt Bool.false_ne_true⟩
    | cons d rest =>
      by_cases newline : d = '\n'
      · subst newline
        simp [withReturns_newline, spells, noNewline, noReturn]
      · obtain ⟨alike, short⟩ := ih others rest
        rw [withReturns_cons_of_ne newline, spells, spells, alike, List.length_cons,
          shifted_cons_of_ne newline, Bool.and_eq_true]
        exact ⟨rfl, fun spelt => congrArg (· + 1) (short spelt.2)⟩

theorem ignoresReturns_word {same : Char → Char → Bool} {spellings : List (List Char)}
    (plain : ∀ spelling ∈ spellings, ∀ c ∈ spelling, same c '\n' = false ∧ same c '\r' = false) :
    (word same spellings).IgnoresReturns := by
  intro afterWord rest
  have alike : spellings.filter (spells same · (withReturns rest)) =
      spellings.filter (spells same · rest) :=
    List.filter_congr fun spelling listed => (spells_withReturns (plain spelling listed) rest).1
  rw [lengths, lengths, alike, List.map_map]
  refine List.map_congr_left fun spelling member => ?_
  obtain ⟨listed, spelt⟩ := List.mem_filter.mp member
  exact ((spells_withReturns (plain spelling listed) rest).2 spelt).symm

theorem ignoresReturns_exactly {spellings : List String}
    (plain : ∀ spelling ∈ spellings, '\n' ∉ spelling.toList ∧ '\r' ∉ spelling.toList) :
    (exactly spellings).IgnoresReturns := by
  refine ignoresReturns_word fun spelling listed c member => ?_
  obtain ⟨name, isName, rfl⟩ := List.mem_map.mp listed
  obtain ⟨noNewline, noReturn⟩ := plain name isName
  rw [beq_eq_false_iff_ne, beq_eq_false_iff_ne]
  exact ⟨fun same => noNewline (same ▸ member), fun same => noReturn (same ▸ member)⟩

theorem ignoresReturns_anyCase {spellings : List String}
    (plain : ∀ spelling ∈ spellings, '\n' ∉ spelling.toList ∧ '\r' ∉ spelling.toList) :
    (anyCase spellings).IgnoresReturns := by
  refine ignoresReturns_word fun spelling listed c member => ?_
  obtain ⟨name, isName, rfl⟩ := List.mem_map.mp listed
  obtain ⟨noNewline, noReturn⟩ := plain name isName
  have kept : foldCase '\n' = '\n' ∧ foldCase '\r' = '\r' := by decide
  rw [sameLetter, sameLetter, kept.1, kept.2, beq_eq_false_iff_ne, beq_eq_false_iff_ne]
  exact ⟨fun same => noNewline (eq_of_foldCase_eq same (by decide) ▸ member),
    fun same => noReturn (eq_of_foldCase_eq same (by decide) ▸ member)⟩

/-- Blanks before a character that is not blank are taken all or not at all. -/
theorem lengths_blanks_char {c : Char} (solid : isBlank c = false) (afterWord : Bool) (d : Char)
    (rest : List Char) :
    (next blanks (char c)).lengths afterWord (d :: rest) =
      if isBlank d then ((next blanks (char c)).lengths afterWord rest).map (· + 1)
      else if d = c then [1] else [] := by
  cases blank : isBlank d with
  | true =>
    have other : d ≠ c := by
      rintro rfl
      rw [solid] at blank
      cases blank
    have later : (fun count => ((char c).lengths (endsInWord afterWord ((d :: rest).take (count + 1)))
          ((d :: rest).drop (count + 1))).map (count + 1 + ·)) =
        fun count => (((char c).lengths (endsInWord afterWord (rest.take count))
          (rest.drop count)).map (count + ·)).map (· + 1) := by
      funext count
      rw [List.map_map, List.drop_succ_cons, char, lengths, lengths]
      split
      · exact congrArg ([·]) (Nat.add_right_comm count 1 1)
      · rfl
    have first : (char c).lengths (endsInWord afterWord []) (d :: rest) = [] := by
      simp [char, lengths, other]
    rw [lengths, lengths, blanks, lengths, lengths, List.takeWhile_cons_of_pos blank,
      List.length_cons, List.range_succ_eq_map, List.reverse_cons, ← List.map_reverse,
      List.flatMap_append, List.flatMap_map, later, List.flatMap_singleton, List.take_zero,
      List.drop_zero, first, if_pos rfl, List.map_flatMap]
    exact List.append_nil _
  | false => simp [lengths, blanks, char, blank]

theorem ignoresReturns_blanks_char {c : Char} (solid : isBlank c = false) :
    (next blanks (char c)).IgnoresReturns := by
  intro afterWord rest
  induction rest with
  | nil => rfl
  | cons d rest ih =>
    by_cases newline : d = '\n'
    · subst newline
      rw [withReturns_newline, lengths_blanks_char solid, lengths_blanks_char solid,
        lengths_blanks_char solid, if_pos (by decide), if_pos (by decide), if_pos (by decide), ih,
        List.map_map, List.map_map, List.map_map]
      rfl
    · have one : (· + 1) ∘ shifted rest = shifted (d :: rest) ∘ (· + 1) := by
        funext count
        exact (shifted_cons_of_ne newline rest count).symm
      rw [withReturns_cons_of_ne newline, lengths_blanks_char solid, lengths_blanks_char solid]
      split
      · rw [ih, List.map_map, List.map_map, one]
      · split
        · rw [List.map_singleton, shifted_cons_of_ne newline]
          rfl
        · rfl

namespace IgnoresReturns

variable {pattern first second : Pattern}

theorem next (first' : first.IgnoresReturns) (second' : second.IgnoresReturns) :
    (next first second).IgnoresReturns := by
  intro afterWord rest
  rw [lengths, lengths, first', List.flatMap_map, List.map_flatMap]
  congr 1
  funext count
  rw [take_shifted, drop_shifted, endsInWord_withReturns, second', List.map_map, List.map_map]
  refine List.map_congr_left fun more _ => ?_
  exact (shifted_add rest count more).symm

theorem either (first' : first.IgnoresReturns) (second' : second.IgnoresReturns) :
    (either first second).IgnoresReturns := by
  intro afterWord rest
  rw [lengths, lengths, first', second', List.map_append]

/-- The walk along a text with returns stops at the characters at which it stopped without them. A
match in progress is passed over together with the returns in it. -/
theorem startsFrom_withReturns (ignores : pattern.IgnoresReturns)
    (never : ∀ afterWord rest, pattern.lengths afterWord ('\n' :: rest) = []) {index skip : Nat}
    {afterWord : Bool} {text : List Char} (within : skip ≤ text.length) :
    pattern.startsFrom index afterWord (shifted text skip) (withReturns text) =
      (pattern.startsFrom 0 afterWord skip text).map (index + shifted text ·) := by
  induction text generalizing index skip afterWord with
  | nil =>
    obtain rfl : skip = 0 := Nat.le_zero.mp within
    change pattern.startsFrom index afterWord 0 [] = _
    rw [startsFrom, startsFrom]
    split <;> rfl
  | cons c text ih =>
    have step (skip : Nat) (afterWord : Bool) (size : Nat)
        (sizes : ∀ count, shifted (c :: text) (count + 1) = shifted text count + size) :
        (pattern.startsFrom (0 + 1) afterWord skip text).map (index + shifted (c :: text) ·) =
          (pattern.startsFrom 0 afterWord skip text).map (index + size + shifted text ·) := by
      rw [startsFrom_eq_map, List.map_map]
      refine List.map_congr_left fun start _ => ?_
      rw [Function.comp_apply, Nat.zero_add, Nat.add_comm 1, sizes]
      omega
    by_cases newline : c = '\n'
    · subst newline
      have none : pattern.lengths afterWord ('\r' :: '\n' :: withReturns text) = [] := by
        rw [← withReturns_newline, ignores, never, List.map_nil]
      have noWord : isWord '\r' = false ∧ isWord '\n' = false := by decide
      cases skip with
      | zero =>
        simp only [withReturns_newline, shifted_zero, startsFrom, none, never, if_true,
          List.head?_nil, noWord]
        rw [step 0 false 2 fun _ => rfl]
        exact ih (Nat.zero_le _)
      | succ skip =>
        simp only [withReturns_newline, shifted_newline, startsFrom, Nat.add_one_ne_zero, if_false,
          Nat.add_one_sub_one, noWord]
        rw [step skip false 2 fun _ => rfl]
        exact ih (Nat.le_of_succ_le_succ within)
    · have sizes := shifted_cons_of_ne newline text
      cases skip with
      | zero =>
        simp only [withReturns_cons_of_ne newline, shifted_zero, startsFrom, if_true]
        rw [← withReturns_cons_of_ne newline, ignores, List.head?_map]
        cases preferred : (pattern.lengths afterWord (c :: text)).head? with
        | none =>
          simp only [Option.map_none]
          rw [step 0 (isWord c) 1 sizes]
          exact ih (Nat.zero_le _)
        | some count =>
          have fits := le_length_of_mem_lengths (List.mem_of_mem_head? preferred)
          have passed : shifted (c :: text) count - 1 = shifted text (count - 1) := by
            cases count with
            | zero => rfl
            | succ count => rw [sizes, Nat.add_sub_cancel, Nat.add_sub_cancel]
          simp only [Option.map_some, List.map_cons, shifted_zero, Nat.add_zero]
          rw [passed, step (count - 1) (isWord c) 1 sizes, ih (by simpa using fits)]
      | succ skip =>
        simp only [withReturns_cons_of_ne newline, sizes, startsFrom, Nat.add_one_ne_zero, if_false,
          Nat.add_one_sub_one]
        rw [step skip (isWord c) 1 sizes]
        exact ih (Nat.le_of_succ_le_succ within)

variable (ignores : pattern.IgnoresReturns)
  (never : ∀ afterWord rest, pattern.lengths afterWord ('\n' :: rest) = []) (text : List Char)

include ignores never

theorem starts_withReturns :
    pattern.starts (withReturns text) = (pattern.starts text).map (shifted text) := by
  have walked := @startsFrom_withReturns pattern ignores never 0 0 false text (Nat.zero_le _)
  simp only [shifted_zero, Nat.zero_add] at walked
  exact walked

theorem count_withReturns : pattern.count (withReturns text) = pattern.count text := by
  rw [count_eq_length_starts, count_eq_length_starts, ignores.starts_withReturns never,
    List.length_map]

end IgnoresReturns

end Pattern

end SnippetAudit
