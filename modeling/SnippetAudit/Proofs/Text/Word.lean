import SnippetAudit.Proofs.Text.Lines
import SnippetAudit.Text.Word

/-!
Words: the longest runs of word characters in a text. A character keeps being a word character when
its case is folded, so a word does not fall apart by that. No word goes on behind a line break, so the
words of a text are those of its lines.
-/

namespace SnippetAudit.Text

/-- The words of a text, in order: what is left of it between the other characters. -/
def words (text : List Char) : List (List Char) :=
  (text.splitOnP (!isWord ·)).filter (!·.isEmpty)

/-- No word goes on behind a character of no word. -/
theorem words_append_cons {c : Char} (noWord : isWord c = false) (front back : List Char) :
    words (front ++ c :: back) = words front ++ words back := by
  rw [words, List.splitOnP_append_cons front back (by rw [noWord]; rfl), List.filter_append]
  rfl

theorem words_join_lines (found : List (List Char)) :
    words (join ['\n'] found) = found.flatMap words := by
  induction found with
  | nil => rfl
  | cons line found ih =>
    cases found with
    | nil => simp [join]
    | cons second later =>
      rw [join_cons_cons, List.append_assoc, List.singleton_append,
        words_append_cons (by decide), ih]
      rfl

/-- The words of a text are those of its lines. -/
theorem words_eq_flatMap_lines (text : List Char) : words text = (lines text).flatMap words := by
  rw [← words_join_lines, lines, join_pieces]

/-- A text in lower case, as far as folding changes it. -/
def folded (text : List Char) : List Char :=
  text.map foldCase

/-- A word is one of some names, in upper or lower case. -/
def isAmong (names : List String) (word : List Char) : Bool :=
  names.any fun name => folded name.toList == folded word

/-- A character is left as it is, or it is a form of a letter and gives that letter. -/
theorem foldCase_cases (c : Char) :
    foldCase c = c ∨ isWord c = true ∧ 'a' ≤ foldCase c ∧ foldCase c ≤ 'z' := by
  rw [foldCase]
  split
  · rename_i upper
    have low : 65 ≤ c.toNat ∧ c.toNat ≤ 90 := upper
    have lowered : (Char.ofNat (c.toNat + 32)).toNat = c.toNat + 32 := by
      rw [Char.ofNat, dif_pos (Or.inl (by omega))]
      rfl
    refine Or.inr ⟨?_, ?_, ?_⟩
    · rw [isWord, if_pos (by omega), isPlainWord]
      simp [upper]
    · change 97 ≤ (Char.ofNat (c.toNat + 32)).toNat
      omega
    · change (Char.ofNat (c.toNat + 32)).toNat ≤ 122
      omega
  · split
    · rename_i longS
      have same : c = Char.ofNat 0x17F := Char.toNat_inj.mp longS
      subst same
      exact Or.inr ⟨by decide, by decide, by decide⟩
    · split
      · rename_i kelvin
        have same : c = Char.ofNat 0x212A := Char.toNat_inj.mp kelvin
        subst same
        exact Or.inr ⟨by decide, by decide, by decide⟩
      · exact Or.inl rfl

theorem isWord_of_lower {c : Char} (lower : 'a' ≤ c ∧ c ≤ 'z') : isWord c = true := by
  have low : 97 ≤ c.toNat ∧ c.toNat ≤ 122 := lower
  rw [isWord, if_pos (by omega), isPlainWord]
  simp [lower]

theorem isWord_foldCase (c : Char) : isWord (foldCase c) = isWord c := by
  rcases foldCase_cases c with same | ⟨word, lower⟩
  · rw [same]
  · rw [word, isWord_of_lower lower]

/-- Only letters have other forms. -/
theorem eq_of_foldCase_eq {c d : Char} (same : foldCase c = d) (noLetter : isWord d = false) :
    c = d := by
  rcases foldCase_cases c with kept | ⟨word, -⟩
  · rw [← same, kept]
  · rw [← same, isWord_foldCase, word] at noLetter
    cases noLetter

/-- What folds to characters of no word is left as it is by folding. -/
theorem eq_of_folded_eq {plain used : List Char} (noWord : (plain.all fun c => !isWord c) = true)
    (same : folded used = plain) : used = plain := by
  induction used generalizing plain with
  | nil => exact same
  | cons c used ih =>
    subst same
    rw [folded, List.map_cons, List.all_cons, Bool.and_eq_true, Bool.not_eq_true'] at noWord
    have first : c = foldCase c := eq_of_foldCase_eq rfl noWord.1
    have others := ih noWord.2 rfl
    rw [folded, List.map_cons, ← first]
    exact congrArg _ others

/-- What folds to word characters has word characters only. -/
theorem isWord_of_folded_eq {plain used : List Char} (word : plain.all isWord = true)
    (same : folded used = plain) : ∀ c ∈ used, isWord c = true := by
  intro c member
  rw [← isWord_foldCase]
  exact List.all_eq_true.mp word _ (same ▸ List.mem_map_of_mem member)

theorem head?_folded_any (text : List Char) :
    (folded text).head?.any isWord = text.head?.any isWord := by
  cases text with
  | nil => rfl
  | cons c text => exact isWord_foldCase c

theorem getLast?_folded_any (text : List Char) :
    (folded text).getLast?.any isWord = text.getLast?.any isWord := by
  rw [folded, List.getLast?_map]
  cases text.getLast? with
  | none => rfl
  | some c => exact isWord_foldCase c

theorem ne_nil_of_isAmong {names : List String} {word : List Char} (filled : "" ∉ names)
    (among : isAmong names word = true) : word ≠ [] := by
  rintro rfl
  obtain ⟨name, listed, same⟩ := List.any_eq_true.mp among
  have none : name.toList = [] := List.map_eq_nil_iff.mp (beq_iff_eq.mp same)
  rw [String.toList_eq_nil_iff.mp none] at listed
  exact filled listed

/-- What is spelt like one of some names has word characters only if the names have. -/
theorem isWord_of_isAmong {names : List String} {word : List Char}
    (plain : ∀ name ∈ names, name.toList.all isWord = true) (among : isAmong names word = true) :
    ∀ c ∈ word, isWord c = true := by
  obtain ⟨name, listed, same⟩ := List.any_eq_true.mp among
  refine isWord_of_folded_eq ?_ (beq_iff_eq.mp same).symm
  rw [folded, List.all_map]
  exact (List.all_congr rfl isWord_foldCase).trans (plain name listed)

/-- A word is spelt with a word character first if all the names are, and with none if none is. -/
theorem head?_any_of_isAmong {names : List String} {word : List Char} {first : Bool}
    (alike : ∀ name ∈ names, name.toList.head?.any isWord = first)
    (among : isAmong names word = true) : word.head?.any isWord = first := by
  obtain ⟨name, listed, same⟩ := List.any_eq_true.mp among
  rw [← head?_folded_any, ← beq_iff_eq.mp same, head?_folded_any]
  exact alike name listed

theorem getLast?_any_of_isAmong {names : List String} {word : List Char} {last : Bool}
    (alike : ∀ name ∈ names, name.toList.getLast?.any isWord = last)
    (among : isAmong names word = true) : word.getLast?.any isWord = last := by
  obtain ⟨name, listed, same⟩ := List.any_eq_true.mp among
  rw [← getLast?_folded_any, ← beq_iff_eq.mp same, getLast?_folded_any]
  exact alike name listed

end SnippetAudit.Text
