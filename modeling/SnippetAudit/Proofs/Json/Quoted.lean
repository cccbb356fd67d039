import SnippetAudit.Json.Printer
import SnippetAudit.Json.Reader

/-!
Texts in quotes. What is escaped reads back character by character, and neither a quote nor a control
character is left of it.
-/

namespace SnippetAudit.Json

open Text

variable {found rest : List Char} {c : Char}

/-- A character is written as it is, as a letter behind a backslash, or by its number. -/
theorem escape_cases (c : Char) :
    (escape c = [c] ∧ c ≠ '"' ∧ c ≠ '\\' ∧ 32 ≤ c.toNat) ∨
      (∃ letter, escape c = ['\\', letter] ∧ escaped? letter = some c ∧ 32 ≤ letter.toNat) ∨
      (escape c = ['\\', 'u', '0', '0', hexDigit (c.toNat / 16), hexDigit (c.toNat % 16)] ∧
        c.toNat < 32) := by
  by_cases quote : c = '"'
  · subst quote; exact Or.inr (Or.inl ⟨'"', rfl, rfl, by decide⟩)
  by_cases backslash : c = '\\'
  · subst backslash; exact Or.inr (Or.inl ⟨'\\', rfl, rfl, by decide⟩)
  by_cases newline : c = '\n'
  · subst newline; exact Or.inr (Or.inl ⟨'n', rfl, rfl, by decide⟩)
  by_cases carriage : c = '\r'
  · subst carriage; exact Or.inr (Or.inl ⟨'r', rfl, rfl, by decide⟩)
  by_cases tab : c = '\t'
  · subst tab; exact Or.inr (Or.inl ⟨'t', rfl, rfl, by decide⟩)
  by_cases back : c.toNat = 8
  · have same : c = Char.ofNat 8 := by rw [← back, Char.ofNat_toNat]
    subst same; exact Or.inr (Or.inl ⟨'b', rfl, rfl, by decide⟩)
  by_cases feed : c.toNat = 12
  · have same : c = Char.ofNat 12 := by rw [← feed, Char.ofNat_toNat]
    subst same; exact Or.inr (Or.inl ⟨'f', rfl, rfl, by decide⟩)
  simp only [escape, if_neg quote, if_neg backslash, if_neg newline, if_neg carriage, if_neg tab,
    if_neg back, if_neg feed]
  by_cases control : c.toNat < 32
  · exact Or.inr (Or.inr ⟨if_pos control, control⟩)
  · exact Or.inl ⟨if_neg control, quote, backslash, by omega⟩

theorem readQuoted_quote : readQuoted found ('"' :: rest) = some (String.ofList found.reverse, rest) :=
  rfl

theorem readQuoted_plain (quote : c ≠ '"') (backslash : c ≠ '\\') (visible : 32 ≤ c.toNat) :
    readQuoted found (c :: rest) = readQuoted (c :: found) rest := by
  have taken : ¬(c.toNat < 32 ∨ c = '\\') := by
    rintro (control | same)
    · omega
    · exact backslash same
  rw [readQuoted.eq_5 found c rest quote (fun _ _ _ _ _ same => absurd same backslash)
    (fun _ _ same => absurd same backslash), if_neg taken]

theorem readQuoted_letter {letter : Char} (other : letter ≠ 'u') :
    readQuoted found ('\\' :: letter :: rest) =
      (escaped? letter).bind fun plain => readQuoted (plain :: found) rest := by
  rw [readQuoted.eq_4 found letter rest (fun _ _ _ _ _ same => absurd same other)]
  cases escaped? letter <;> rfl

theorem readQuoted_unit {a b d e : Char} {unit : Nat} (value : unit? a b d e = some unit)
    (plain : unit < 0xD800) :
    readQuoted found ('\\' :: 'u' :: a :: b :: d :: e :: rest) =
      readQuoted (Char.ofNat unit :: found) rest := by
  have high : ¬(0xD800 ≤ unit ∧ unit < 0xDC00) := by omega
  have low : ¬(0xDC00 ≤ unit ∧ unit < 0xE000) := by omega
  rw [readQuoted, value]
  simp only [if_neg high, if_neg low]

theorem ne_u_of_escaped? {letter : Char} (letters : escaped? letter = some c) : letter ≠ 'u' := by
  rintro rfl
  exact absurd letters (by simp [escaped?])

theorem unit?_control (control : c.toNat < 32) :
    unit? '0' '0' (hexDigit (c.toNat / 16)) (hexDigit (c.toNat % 16)) = some c.toNat := by
  have all : ∀ n < 32, unit? '0' '0' (hexDigit (n / 16)) (hexDigit (n % 16)) = some n := by decide
  exact all c.toNat control

theorem readQuoted_escape (found : List Char) (c : Char) (rest : List Char) :
    readQuoted found (escape c ++ rest) = readQuoted (c :: found) rest := by
  rcases escape_cases c with ⟨same, quote, backslash, visible⟩ | ⟨letter, same, letters, _⟩ |
    ⟨same, control⟩
  · rw [same]
    exact readQuoted_plain quote backslash visible
  · rw [same, List.cons_append, List.cons_append, List.nil_append,
      readQuoted_letter (ne_u_of_escaped? letters), letters, Option.bind_some]
  · simp only [same, List.cons_append, List.nil_append]
    rw [readQuoted_unit (unit?_control control) (by omega), Char.ofNat_toNat]

theorem readQuoted_flatMap_escape (found text rest : List Char) :
    readQuoted found (text.flatMap escape ++ rest) = readQuoted (text.reverse ++ found) rest := by
  induction text generalizing found with
  | nil => rfl
  | cons c text ih =>
    rw [List.flatMap_cons, List.append_assoc, readQuoted_escape, ih, List.reverse_cons,
      List.append_assoc, List.singleton_append]

/-- A quoted text is read as the text, whatever stands behind it. -/
theorem readQuoted_quoted (text : String) (rest : List Char) :
    readQuoted [] (text.toList.flatMap escape ++ '"' :: rest) = some (text, rest) := by
  rw [readQuoted_flatMap_escape, readQuoted_quote, List.append_nil, List.reverse_reverse,
    String.ofList_toList]

theorem visible_of_mem_escape {c d : Char} (member : d ∈ escape c) : 32 ≤ d.toNat := by
  have digit : ∀ n < 16, 32 ≤ (hexDigit n).toNat := by decide
  rcases escape_cases c with ⟨same, _, _, visible⟩ | ⟨letter, same, _, visible⟩ | ⟨same, control⟩
  · rw [same, List.mem_singleton] at member
    rwa [member]
  · simp only [same, List.mem_cons, List.not_mem_nil, or_false] at member
    rcases member with rfl | rfl
    · decide
    · exact visible
  · have small : c.toNat / 16 < 16 := by omega
    have rest : c.toNat % 16 < 16 := Nat.mod_lt _ (by decide)
    simp only [same, List.mem_cons, List.not_mem_nil, or_false] at member
    rcases member with rfl | rfl | rfl | rfl | rfl | rfl
    · decide
    · decide
    · decide
    · decide
    · exact digit _ small
    · exact digit _ rest

/-- What stands behind a text does not change how a quoted text at its start is read. -/
theorem readQuoted_append {text left : List Char} {value : String}
    (read : readQuoted found text = some (value, left)) (rest : List Char) :
    readQuoted found (text ++ rest) = some (value, left ++ rest) := by
  fun_induction readQuoted found text with
  | case2 found behind =>
    cases read
    rfl
  | case5 found a b c d high units inHigh e f g h behind low pair inLow ih =>
    simp only [List.cons_append]
    rw [readQuoted.eq_3, units]
    simp only [if_pos inHigh, pair, if_pos inLow]
    exact ih read
  | case9 found a b c d behind unit units plain noLow ih =>
    simp only [List.cons_append]
    rw [readQuoted.eq_3, units]
    simp only [if_neg plain, if_neg noLow]
    exact ih read
  | case10 found letter behind single plain letters ih =>
    rw [List.cons_append, List.cons_append, readQuoted_letter (ne_u_of_escaped? letters), letters]
    exact ih read
  | case13 found c behind quote number letter taken ih =>
    have backslash : c ≠ '\\' := fun same => taken (Or.inr same)
    have visible : 32 ≤ c.toNat := Nat.le_of_not_lt fun control => taken (Or.inl control)
    rw [List.cons_append, readQuoted_plain quote backslash visible]
    exact ih read
  | _ => cases read

end SnippetAudit.Json
