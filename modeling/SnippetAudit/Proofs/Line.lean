import SnippetAudit.Line
import SnippetAudit.Proofs.Text.Lines

/-!
Lines of each kind. Two texts with a line break between them have the lines of both, and every line
is of one kind. So the counts of a text are sums over its lines, and nothing in one line has any
influence on how another is counted.
-/

namespace SnippetAudit

open Text

theorem LineKind.count_append (kind : LineKind) (front back : List Char) :
    kind.count (front ++ '\n' :: back) = kind.count front + kind.count back := by
  rw [count, lines, pieces_append_cons, List.countP_append]
  rfl

/-- Every line is of one kind, so the lines of all kinds together are the lines. -/
theorem LineKind.length_eq_countP (all : List (List Char)) :
    all.length = all.countP (LineKind.of · == code) + all.countP (LineKind.of · == comment) +
      all.countP (LineKind.of · == blank) := by
  induction all with
  | nil => rfl
  | cons line all ih =>
    rw [List.length_cons, ih, List.countP_cons, List.countP_cons, List.countP_cons]
    cases LineKind.of line <;> simp only [BEq.rfl, if_true, reduceCtorEq, beq_iff_eq, if_false] <;>
      omega

namespace LineMetrics

theorem total_append (front back : List Char) :
    (ofText (front ++ '\n' :: back)).total = (ofText front).total + (ofText back).total := by
  simp only [ofText, lines, pieces_append_cons, List.length_append]

theorem code_append (front back : List Char) :
    (ofText (front ++ '\n' :: back)).code = (ofText front).code + (ofText back).code :=
  LineKind.code.count_append front back

theorem comment_append (front back : List Char) :
    (ofText (front ++ '\n' :: back)).comment = (ofText front).comment + (ofText back).comment :=
  LineKind.comment.count_append front back

theorem blank_append (front back : List Char) :
    (ofText (front ++ '\n' :: back)).blank = (ofText front).blank + (ofText back).blank :=
  LineKind.blank.count_append front back

theorem total_eq (text : List Char) : (ofText text).total = text.count '\n' + 1 :=
  length_pieces '\n' text

theorem total_eq_kinds (text : List Char) :
    (ofText text).total = (ofText text).code + (ofText text).comment + (ofText text).blank :=
  LineKind.length_eq_countP (lines text)

/-- Two texts with a line break between them have as many lines, and as many of each kind, as both
together. A text has one line more than it has newlines, and each line is of one kind. -/
theorem ofText_additive :
    (∀ front back : List Char,
      (ofText (front ++ '\n' :: back)).total = (ofText front).total + (ofText back).total ∧
      (ofText (front ++ '\n' :: back)).code = (ofText front).code + (ofText back).code ∧
      (ofText (front ++ '\n' :: back)).comment = (ofText front).comment + (ofText back).comment ∧
      (ofText (front ++ '\n' :: back)).blank = (ofText front).blank + (ofText back).blank) ∧
    ∀ text : List Char,
      (ofText text).total = text.count '\n' + 1 ∧
      (ofText text).total = (ofText text).code + (ofText text).comment + (ofText text).blank :=
  ⟨fun front back => ⟨total_append front back, code_append front back, comment_append front back,
    blank_append front back⟩, fun text => ⟨total_eq text, total_eq_kinds text⟩⟩

end LineMetrics

end SnippetAudit
