import Mathlib.Data.List.Forall2
import SnippetAudit.Proofs.Text.Lines

/-!
Texts with the other line ending: each newline has a carriage return before it. A carriage return is
blank, so the lines of the two texts differ at most in a blank at their ends.
-/

namespace SnippetAudit.Text

/-- A text with a carriage return put before each newline, also before one that has one already. -/
def withReturns (text : List Char) : List Char :=
  text.flatMap fun c => if c = '\n' then ['\r', '\n'] else [c]

/-- How many characters there are when returns are put into the first ones of a text. -/
def shifted (text : List Char) (count : Nat) : Nat :=
  (withReturns (text.take count)).length

variable {text line : List Char} {c : Char}

theorem withReturns_cons (c : Char) (text : List Char) :
    withReturns (c :: text) = (if c = '\n' then ['\r', '\n'] else [c]) ++ withReturns text := rfl

theorem withReturns_newline (text : List Char) :
    withReturns ('\n' :: text) = '\r' :: '\n' :: withReturns text := rfl

theorem withReturns_cons_of_ne (other : c ≠ '\n') (text : List Char) :
    withReturns (c :: text) = c :: withReturns text := by
  rw [withReturns_cons, if_neg other, List.singleton_append]

theorem withReturns_append (front back : List Char) :
    withReturns (front ++ back) = withReturns front ++ withReturns back :=
  List.flatMap_append

theorem shifted_zero (text : List Char) : shifted text 0 = 0 := rfl

theorem shifted_newline (text : List Char) (count : Nat) :
    shifted ('\n' :: text) (count + 1) = shifted text count + 2 := rfl

theorem shifted_cons_of_ne (other : c ≠ '\n') (text : List Char) (count : Nat) :
    shifted (c :: text) (count + 1) = shifted text count + 1 := by
  rw [shifted, List.take_succ_cons, withReturns_cons_of_ne other, List.length_cons, shifted]

/-- A text is cut where it was, once the place is moved behind the returns before it. -/
theorem withReturns_cut (text : List Char) (count : Nat) :
    withReturns text = withReturns (text.take count) ++ withReturns (text.drop count) := by
  rw [← withReturns_append, List.take_append_drop]

theorem take_shifted (text : List Char) (count : Nat) :
    (withReturns text).take (shifted text count) = withReturns (text.take count) := by
  rw [withReturns_cut text count, shifted, List.take_left]

theorem drop_shifted (text : List Char) (count : Nat) :
    (withReturns text).drop (shifted text count) = withReturns (text.drop count) := by
  rw [withReturns_cut text count, shifted, List.drop_left]

theorem shifted_add (text : List Char) (count more : Nat) :
    shifted text (count + more) = shifted text count + shifted (text.drop count) more := by
  rw [shifted, List.take_add, withReturns_append, List.length_append]
  rfl

theorem count_withReturns (other : c ≠ '\r') : (withReturns text).count c = text.count c := by
  induction text with
  | nil => rfl
  | cons d text ih =>
    by_cases newline : d = '\n'
    · rw [newline, withReturns_newline, List.count_cons_of_ne (Ne.symm other), List.count_cons, ih,
        List.count_cons]
    · rw [withReturns_cons_of_ne newline, List.count_cons, ih, List.count_cons]

theorem getLast?_withReturns (text : List Char) : (withReturns text).getLast? = text.getLast? := by
  rcases List.eq_nil_or_concat text with rfl | ⟨front, c, rfl⟩
  · rfl
  · rw [List.concat_eq_append, withReturns_append, List.getLast?_append, List.getLast?_append,
      withReturns_cons]
    split
    · rename_i newline
      rw [newline]
      rfl
    · rfl

/-- Where a text begins with a newline, a carriage return stands there now. -/
theorem head?_withReturns_any {accepts : Char → Bool} (newline : accepts '\n' = false)
    (return' : accepts '\r' = false) :
    (withReturns text).head?.any accepts = text.head?.any accepts := by
  cases text with
  | nil => rfl
  | cons c text =>
    by_cases same : c = '\n'
    · rw [same, withReturns_newline, List.head?_cons, List.head?_cons, Option.any_some,
        Option.any_some, newline, return']
    · rw [withReturns_cons_of_ne same, List.head?_cons, List.head?_cons]

/-- The line of a character is the same, however its line and those before it end. -/
theorem lineAt_shifted (text : List Char) (index : Nat) :
    lineAt (withReturns text) (shifted text index) = lineAt text index := by
  rw [lineAt, lineAt, take_shifted, count_withReturns (by decide)]

/-- A line stays as it is, or it ends in a carriage return now. -/
theorem lines_withReturns (text : List Char) :
    List.Forall₂ (fun line line' => line' = line ∨ line' = line ++ ['\r'])
      (lines text) (lines (withReturns text)) := by
  induction text with
  | nil => exact .cons (Or.inl rfl) .nil
  | cons c text ih =>
    obtain ⟨first, rest, cut⟩ := List.exists_cons_of_ne_nil (pieces_ne_nil '\n' text)
    obtain ⟨first', rest', cut'⟩ :=
      List.exists_cons_of_ne_nil (pieces_ne_nil '\n' (withReturns text))
    simp only [lines] at ih ⊢
    by_cases newline : c = '\n'
    · subst newline
      have ended : pieces '\n' ('\r' :: '\n' :: withReturns text) =
          ['\r'] :: pieces '\n' (withReturns text) := by
        exact @pieces_append_separator '\n' ['\r'] (withReturns text) (by decide)
      rw [withReturns_newline, ended, pieces_cons, if_pos rfl]
      exact .cons (Or.inr rfl) ih
    · rw [withReturns_cons_of_ne newline, pieces_cons, pieces_cons, if_neg newline, if_neg newline,
        cut, cut']
      rw [cut, cut', List.forall₂_cons] at ih
      refine .cons ?_ ih.2
      exact ih.1.imp (congrArg (c :: ·)) (congrArg (c :: ·))

/-- What is told of a line without regard to a carriage return at its end is told of the lines of
both texts alike. -/
theorem map_lines_withReturns {told : List Char → β}
    (blind : ∀ line, told (line ++ ['\r']) = told line) (text : List Char) :
    (lines (withReturns text)).map told = (lines text).map told := by
  have alike := lines_withReturns text
  generalize lines text = found, lines (withReturns text) = found' at alike ⊢
  induction alike with
  | nil => rfl
  | cons same _ ih =>
    rw [List.map_cons, List.map_cons, ih]
    rcases same with rfl | rfl
    · rfl
    · rw [blind]

theorem isBlankLine_append_return (line : List Char) :
    isBlankLine (line ++ ['\r']) = isBlankLine line := by
  have blank : isBlank '\r' = true := by decide
  simp [isBlankLine, blank]

theorem trim_append_return (line : List Char) : trim (line ++ ['\r']) = trim line := by
  have blank : isBlank '\r' = true := by decide
  rw [trim, trim, trimStart, trimStart, List.dropWhile_append]
  split
  · rename_i none
    rw [List.isEmpty_iff.mp none, List.dropWhile_cons_of_pos blank]
    rfl
  · rw [trimEnd, List.reverse_append, List.reverse_singleton, List.singleton_append,
      List.dropWhile_cons_of_pos blank, trimEnd]

/-- The blanks that a line begins with do not reach its end, unless it has nothing else. -/
theorem takeWhile_isBlank_append_return (filled : isBlankLine line = false) :
    (line ++ ['\r']).takeWhile isBlank = line.takeWhile isBlank := by
  rw [List.takeWhile_append, if_neg]
  intro whole
  have all : line.takeWhile isBlank = line :=
    (List.takeWhile_prefix isBlank).eq_of_length whole
  rw [isBlankLine, ← all, List.all_takeWhile] at filled
  cases filled

end SnippetAudit.Text
