import SnippetAudit.Proofs.Text.Trim
import SnippetAudit.Text.Lines

/-!
Pieces and lines. A separator always cuts, wherever it stands, so the pieces of two texts with a
separator between them are the pieces of both.
-/

namespace SnippetAudit.Text

variable {separator c : Char} {text front back : List Char}

theorem pieces_cons (separator c : Char) (text : List Char) :
    pieces separator (c :: text) =
      if c = separator then [] :: pieces separator text
      else match pieces separator text with
        | [] => [[c]]
        | piece :: rest => (c :: piece) :: rest := rfl

theorem pieces_ne_nil (separator : Char) (text : List Char) : pieces separator text ≠ [] := by
  cases text with
  | nil => exact List.cons_ne_nil [] []
  | cons c text =>
    rw [pieces_cons]
    split
    · exact List.cons_ne_nil _ _
    · split <;> exact List.cons_ne_nil _ _

/-- The first piece of a text grows by the characters before it that are no separators. -/
theorem pieces_append_of_not_mem (plain : separator ∉ front) {piece : List Char}
    {rest : List (List Char)} (cut : pieces separator text = piece :: rest) :
    pieces separator (front ++ text) = (front ++ piece) :: rest := by
  induction front with
  | nil => exact cut
  | cons c front ih =>
    have different : c ≠ separator := fun same => plain (same ▸ List.mem_cons_self)
    have later := ih fun member => plain (List.mem_cons_of_mem c member)
    rw [List.cons_append, pieces_cons, if_neg different, later]
    rfl

theorem pieces_of_not_mem (plain : separator ∉ text) : pieces separator text = [text] := by
  have whole := pieces_append_of_not_mem plain (show pieces separator [] = [] :: [] from rfl)
  simpa using whole

theorem pieces_append_cons (front back : List Char) :
    pieces separator (front ++ separator :: back) = pieces separator front ++ pieces separator back := by
  induction front with
  | nil => exact (pieces_cons separator separator back).trans (if_pos rfl)
  | cons c front ih =>
    rw [List.cons_append, pieces_cons, pieces_cons, ih]
    obtain ⟨first, rest, cut⟩ := List.exists_cons_of_ne_nil (pieces_ne_nil separator front)
    rw [cut]
    split <;> rfl

theorem pieces_append_separator (plain : separator ∉ front) :
    pieces separator (front ++ separator :: back) = front :: pieces separator back := by
  rw [pieces_append_cons, pieces_of_not_mem plain, List.singleton_append]

/-- There is one more piece than there are separators. -/
theorem length_pieces (separator : Char) (text : List Char) :
    (pieces separator text).length = text.count separator + 1 := by
  induction text with
  | nil => rfl
  | cons c text ih =>
    obtain ⟨first, rest, cut⟩ := List.exists_cons_of_ne_nil (pieces_ne_nil separator text)
    rw [cut, List.length_cons] at ih
    rw [pieces_cons, cut, List.count_cons]
    by_cases same : c = separator
    · simp only [same, BEq.rfl, if_true, List.length_cons]
      omega
    · simp only [if_neg same, beq_false_of_ne same, Bool.false_eq_true, if_false, List.length_cons]
      omega

theorem join_cons_cons (separator first second : List Char) (later : List (List Char)) :
    join separator (first :: second :: later) =
      first ++ separator ++ join separator (second :: later) := by
  cases later <;> simp [join, List.intersperse]

theorem join_append (separator : List Char) {front back : List (List Char)} (some' : front ≠ [])
    (more : back ≠ []) :
    join separator (front ++ back) = join separator front ++ separator ++ join separator back := by
  induction front with
  | nil => exact absurd rfl some'
  | cons piece front ih =>
    cases front with
    | nil =>
      obtain ⟨first, later, rfl⟩ := List.exists_cons_of_ne_nil more
      rw [List.singleton_append, join_cons_cons]
      simp [join]
    | cons second later =>
      rw [List.cons_append, List.cons_append, join_cons_cons, ← List.cons_append,
        ih (List.cons_ne_nil second later), join_cons_cons]
      simp only [List.append_assoc]

theorem mem_of_mem_join {found : List (List Char)} (member : c ∈ join [separator] found) :
    c = separator ∨ ∃ piece ∈ found, c ∈ piece := by
  induction found with
  | nil => simp [join] at member
  | cons piece found ih =>
    cases found with
    | nil => exact Or.inr ⟨piece, List.mem_singleton_self _, by simpa [join] using member⟩
    | cons second later =>
      rw [join_cons_cons, List.mem_append, List.mem_append, List.mem_singleton] at member
      rcases member with (here | same) | behind
      · exact Or.inr ⟨piece, List.mem_cons_self, here⟩
      · exact Or.inl same
      · rcases ih behind with same | ⟨other, listed, inOther⟩
        · exact Or.inl same
        · exact Or.inr ⟨other, List.mem_cons_of_mem _ listed, inOther⟩

/-- Joined pieces are cut where they were joined. -/
theorem pieces_join {found : List (List Char)} (some' : found ≠ [])
    (plain : ∀ piece ∈ found, separator ∉ piece) :
    pieces separator (join [separator] found) = found := by
  induction found with
  | nil => exact absurd rfl some'
  | cons piece found ih =>
    have first := plain piece List.mem_cons_self
    cases found with
    | nil => simpa [join] using pieces_of_not_mem first
    | cons second later =>
      rw [join_cons_cons, List.append_assoc, List.singleton_append, pieces_append_separator first,
        ih (List.cons_ne_nil second later) fun other listed =>
          plain other (List.mem_cons_of_mem piece listed)]

/-- Cut pieces joined again are the text. -/
theorem join_pieces (separator : Char) (text : List Char) :
    join [separator] (pieces separator text) = text := by
  induction text with
  | nil => rfl
  | cons c text ih =>
    obtain ⟨first, rest, cut⟩ := List.exists_cons_of_ne_nil (pieces_ne_nil separator text)
    rw [cut] at ih
    rw [pieces_cons, cut]
    split
    · rename_i same
      rw [join_cons_cons, ih, same]
      rfl
    · cases rest with
      | nil => simpa [join] using ih
      | cons second later =>
        rw [join_cons_cons] at ih ⊢
        exact congrArg (c :: ·) ih

/-- The characters of the pieces are those of the text but for the separators. -/
theorem exists_mem_pieces_iff :
    (∃ piece ∈ pieces separator text, c ∈ piece) ↔ c ∈ text ∧ c ≠ separator := by
  induction text with
  | nil => simp [pieces]
  | cons d text ih =>
    obtain ⟨first, rest, cut⟩ := List.exists_cons_of_ne_nil (pieces_ne_nil separator text)
    rw [pieces_cons]
    by_cases same : d = separator
    · simp only [if_pos same, List.mem_cons, exists_eq_or_imp, List.not_mem_nil, false_or, ih]
      grind
    · rw [if_neg same, cut]
      rw [cut] at ih
      simp only [List.mem_cons, exists_eq_or_imp] at ih ⊢
      grind

theorem separator_not_mem_pieces {piece : List Char} (listed : piece ∈ pieces separator text) :
    separator ∉ piece :=
  fun member => (exists_mem_pieces_iff.mp ⟨piece, listed, member⟩).2 rfl

/-- Ended lines before the rest of a text are its first lines. -/
theorem endedLines_append_newline (plain : '\n' ∉ front) :
    endedLines (front ++ '\n' :: back) = dropReturn front :: endedLines back := by
  obtain ⟨first, rest, cut⟩ := List.exists_cons_of_ne_nil (pieces_ne_nil '\n' back)
  simp only [endedLines, lines, pieces_append_separator plain, cut, List.dropLast_cons_cons,
    List.map_cons, List.getLast?_cons_cons, List.cons_append]

theorem endedLines_of_not_mem (plain : '\n' ∉ text) :
    endedLines text = if text = [] then [] else [text] := by
  simp only [endedLines, lines, pieces_of_not_mem plain]
  cases text <;> simp

/-- The number of the line on which the character at an index stands. -/
def lineAt (text : List Char) (index : Nat) : Nat :=
  1 + (text.take index).count '\n'

theorem lineAt_le (text : List Char) (index : Nat) : lineAt text index ≤ (lines text).length := by
  have fewer : (text.take index).count '\n' ≤ text.count '\n' :=
    (List.take_sublist index text).count_le '\n'
  rw [lineAt, lines, length_pieces]
  omega

theorem startsWith_append_newline (front back : List Char) {needle : List Char}
    (plain : '\n' ∉ needle) : startsWith (front ++ '\n' :: back) needle = startsWith front needle := by
  rw [startsWith, startsWith, Bool.eq_iff_iff, List.isPrefixOf_iff_prefix,
    List.isPrefixOf_iff_prefix]
  induction needle generalizing front with
  | nil => simp
  | cons c needle ih =>
    rw [List.mem_cons, not_or] at plain
    obtain ⟨different, later⟩ := plain
    cases front with
    | nil => simp [Ne.symm different]
    | cons d front => rw [List.cons_append, List.cons_prefix_cons, List.cons_prefix_cons, ih front later]

/-- A text contains what stands in it from some place on. -/
theorem contains_iff {text needle : List Char} : contains text needle = true ↔ needle <:+: text := by
  induction text with
  | nil => rw [contains, List.isEmpty_iff, List.infix_nil]
  | cons c text ih =>
    rw [contains, Bool.or_eq_true, ih, startsWith, List.isPrefixOf_iff_prefix, List.infix_cons_iff]

/-- What has no newline is found on one side of a line break or on the other. -/
theorem contains_append_newline {needle : List Char} (plain : '\n' ∉ needle) (some' : needle ≠ []) :
    contains (front ++ '\n' :: back) needle = (contains front needle || contains back needle) := by
  induction front with
  | nil =>
    have nowhere : startsWith [] needle = false := by
      cases needle with
      | nil => exact absurd rfl some'
      | cons c needle => rfl
    have empty : contains [] needle = false := by
      rw [contains, List.isEmpty_eq_false_iff]
      exact some'
    have here : startsWith ('\n' :: back) needle = false :=
      (startsWith_append_newline [] back plain).trans nowhere
    rw [List.nil_append, empty, contains, here]
  | cons c front ih =>
    rw [List.cons_append, contains, contains, ih, ← List.cons_append,
      startsWith_append_newline _ _ plain,
      Bool.or_assoc]

end SnippetAudit.Text
