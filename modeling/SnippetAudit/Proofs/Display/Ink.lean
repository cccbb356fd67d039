import Mathlib.Data.List.TakeWhile
import SnippetAudit.Display.Ink
import SnippetAudit.Proofs.Text.Digit
import SnippetAudit.Proofs.Text.Lines

/-!
Coloured text without its colours. The escape sequences for effects are taken out of a text, and what
is left of a painted text is the text, whatever stands behind it; so a line put together from painted
and plain parts comes to the line put together without paint.
-/

namespace SnippetAudit

open Text

/-- A text without the escape character, so that no escape sequence begins in it. -/
def Unescaped (text : String) : Prop :=
  '\x1b' ∉ text.toList

instance (text : String) : Decidable (Unescaped text) :=
  inferInstanceAs (Decidable ('\x1b' ∉ text.toList))

/-- For a text written out the characters are found by unification, and `decide` is fast on them. -/
theorem unescaped_ofList {text : List Char} (plain : '\x1b' ∉ text) :
    Unescaped (String.ofList text) := by
  rwa [Unescaped, String.toList_ofList]

theorem Unescaped.append {front back : String} (first : Unescaped front) (second : Unescaped back) :
    Unescaped (front ++ back) := by
  rw [Unescaped, String.toList_append, List.mem_append, not_or]
  exact ⟨first, second⟩

namespace Ink

/-- The characters between the bracket of an escape sequence and the `m` at its end. -/
def isParameter (c : Char) : Bool :=
  isDigit c || c == ';'

/-- What is behind the escape sequence that a text begins with: an escape character, a bracket, digits
and semicolons, and an `m`. -/
def behindSequence? : List Char → Option (List Char)
  | '\x1b' :: '[' :: text =>
    match text.dropWhile isParameter with
    | 'm' :: behind => some behind
    | _ => none
  | _ => none

theorem length_behindSequence?_lt {text behind : List Char}
    (found : behindSequence? text = some behind) : behind.length < text.length := by
  unfold behindSequence? at found
  split at found
  · rename_i text
    split at found
    · rename_i same
      obtain rfl := Option.some.inj found
      have shorter := (List.dropWhile_suffix isParameter (l := text)).length_le
      rw [same, List.length_cons] at shorter
      simp only [List.length_cons]
      omega
    · cases found
  · cases found

/-- A text without its escape sequences. -/
def strip : List Char → List Char
  | [] => []
  | c :: text =>
    match _ : behindSequence? (c :: text) with
    | some behind => strip behind
    | none => c :: strip text
termination_by text => text.length
decreasing_by
  · exact length_behindSequence?_lt ‹_›
  · exact Nat.lt_succ_self _

variable {front back parameters : List Char}

theorem strip_of_behindSequence? {text behind : List Char}
    (found : behindSequence? text = some behind) : strip text = strip behind := by
  cases text with
  | nil => cases found
  | cons c text =>
    rw [strip]
    split
    · rename_i other also
      rw [found] at also
      rw [Option.some.inj also]
    · rename_i none
      rw [found] at none
      cases none

theorem strip_cons {c : Char} (other : c ≠ '\x1b') (text : List Char) :
    strip (c :: text) = c :: strip text := by
  have none : behindSequence? (c :: text) = none := by
    unfold behindSequence?
    split
    · rename_i same
      exact absurd (List.cons.inj same).1 other
    · rfl
  rw [strip]
  split
  · rename_i also
    rw [none] at also
    cases also
  · rfl

/-- Nothing is taken out of a text before its first escape character. -/
theorem strip_append (plain : '\x1b' ∉ front) : strip (front ++ back) = front ++ strip back := by
  induction front with
  | nil => rfl
  | cons c front ih =>
    rw [List.mem_cons, not_or] at plain
    obtain ⟨other, later⟩ := plain
    rw [List.cons_append, strip_cons (Ne.symm other), ih later, List.cons_append]

theorem strip_sequence (numbers : ∀ c ∈ parameters, isParameter c = true) :
    strip ('\x1b' :: '[' :: (parameters ++ 'm' :: back)) = strip back := by
  refine strip_of_behindSequence? ?_
  have rest : (parameters ++ 'm' :: back).dropWhile isParameter = 'm' :: back :=
    dropWhile_append_cons numbers (by decide)
  simp only [behindSequence?, rest]

theorem isParameter_of_mem_codes {effects : List Effect} {c : Char}
    (member : c ∈ (";".intercalate (effects.map Effect.code)).toList) : isParameter c = true := by
  rw [String.toList_intercalate] at member
  have joined : c ∈ join [';'] ((effects.map Effect.code).map String.toList) := member
  rcases mem_of_mem_join joined with rfl | ⟨piece, listed, inPiece⟩
  · rfl
  · obtain ⟨code, isCode, rfl⟩ := List.mem_map.mp listed
    obtain ⟨effect, -, rfl⟩ := List.mem_map.mp isCode
    have digits : effect.code.toList.all isParameter = true := by
      cases effect <;> decide
    exact List.all_eq_true.mp digits c inPiece

theorem strip_start_append (effects : List Effect) (back : List Char) :
    strip (start effects ++ back) = strip back := by
  have split : start effects ++ back = '\x1b' :: '[' ::
      ((";".intercalate (effects.map Effect.code)).toList ++ 'm' :: back) := by
    simp [start]
  rw [split]
  exact strip_sequence fun c => isParameter_of_mem_codes

theorem strip_stop_append (back : List Char) : strip (stop ++ back) = strip back := by
  have zero : ['0'].all isParameter = true := by decide
  exact @strip_sequence back ['0'] (List.all_eq_true.mp zero)

/-- Nothing is switched on again in a text that switches nothing off. -/
theorem resume_of_not_mem (again : List Char) {text : List Char} (plain : '\x1b' ∉ text) :
    resume again text = text := by
  induction text with
  | nil => rfl
  | cons c text ih =>
    rw [List.mem_cons, not_or] at plain
    obtain ⟨other, later⟩ := plain
    rw [resume, ih later]
    exact fun _ escape _ => other escape.symm

/-- Of a coloured text the plain one is left when its escape sequences are taken out, whatever
stands behind it. -/
def StripsTo (coloured plain : String) : Prop :=
  ∀ behind, strip (coloured.toList ++ behind) = plain.toList ++ strip behind

theorem stripsTo_self {text : String} (plain : Unescaped text) : StripsTo text text :=
  fun _ => strip_append plain

theorem stripsTo_literal {text : List Char} (plain : '\x1b' ∉ text) :
    StripsTo (String.ofList text) (String.ofList text) :=
  stripsTo_self (unescaped_ofList plain)

theorem StripsTo.append {front back front' back' : String} (first : StripsTo front front')
    (second : StripsTo back back') : StripsTo (front ++ back) (front' ++ back') := by
  intro behind
  rw [String.toList_append, String.toList_append, List.append_assoc, first, second,
    List.append_assoc]

theorem StripsTo.append_plain {coloured plain text : String} (strips : StripsTo coloured plain)
    (unescaped : Unescaped text) : StripsTo (coloured ++ text) (plain ++ text) :=
  strips.append (stripsTo_self unescaped)

theorem StripsTo.append_literal {coloured plain : String} {text : List Char}
    (strips : StripsTo coloured plain) (unescaped : '\x1b' ∉ text) :
    StripsTo (coloured ++ String.ofList text) (plain ++ String.ofList text) :=
  strips.append_plain (unescaped_ofList unescaped)

theorem StripsTo.strip_eq {coloured plain : String} (strips : StripsTo coloured plain) :
    strip coloured.toList = plain.toList := by
  have whole := strips []
  rwa [List.append_nil, strip, List.append_nil] at whole

theorem stripsTo_paint (colors : Bool) (effects : List Effect) {text : String}
    (plain : Unescaped text) : StripsTo (paint colors effects text) text := by
  intro behind
  rw [paint]
  split
  · rw [String.toList_ofList, resume_of_not_mem _ plain, List.append_assoc, List.append_assoc,
      strip_start_append, strip_append plain, strip_stop_append]
  · exact strip_append plain

end Ink

end SnippetAudit
