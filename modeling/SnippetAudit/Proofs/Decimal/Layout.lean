import SnippetAudit.Decimal.Layout
import SnippetAudit.Proofs.Text.Digit

/-!
The characters of doubles as text.
-/

namespace SnippetAudit.Decimal

open Text

/-- The characters that a double is written with in JSON output. -/
def isFigure (c : Char) : Bool :=
  isDigit c || c == '-' || c == '+' || c == '.' || c == 'e' || c == 'n' || c == 'u' || c == 'l'

theorem isFigure_of_isDigit {c : Char} (digit : isDigit c = true) : isFigure c = true := by
  simp [isFigure, digit]

/-- Texts all of whose characters may stand in a double. -/
def Figures (text : String) : Prop :=
  ∀ c ∈ text.toList, isFigure c = true

theorem Figures.append {front back : String} (first : Figures front) (second : Figures back) :
    Figures (front ++ back) := by
  intro c member
  rw [String.toList_append, List.mem_append] at member
  rcases member with inFront | inBack
  · exact first c inFront
  · exact second c inBack

theorem figures_ofList {digits : List Char} (all : ∀ c ∈ digits, isDigit c = true) :
    Figures (String.ofList digits) := by
  intro c member
  rw [String.toList_ofList] at member
  exact isFigure_of_isDigit (all c member)

theorem figures_zeros (n : Nat) : Figures (zeros n) := by
  refine figures_ofList ?_
  intro c member
  rw [(List.mem_replicate.mp member).2]
  rfl

theorem figures_sign (negative : Bool) : Figures (sign negative) := by
  cases negative <;> simp [Figures, sign, isFigure]

theorem figures_positionalForm {digits : List Char} (all : ∀ c ∈ digits, isDigit c = true)
    (whole : Int) (point : Bool) : Figures (positionalForm digits whole point) := by
  have dot : Figures "." := by simp [Figures, isFigure]
  have start : Figures "0." := by simp [Figures, isFigure]; decide
  have finish : Figures (if point then ".0" else "") := by
    cases point
    · simp [Figures]
    · simp [Figures, isFigure]; decide
  unfold positionalForm
  split
  · exact (start.append (figures_zeros _)).append (figures_ofList all)
  · split
    · refine (Figures.append ?_ dot).append ?_
      · exact figures_ofList fun c member => all c (List.mem_of_mem_take member)
      · exact figures_ofList fun c member => all c (List.mem_of_mem_drop member)
    · exact ((figures_ofList all).append (figures_zeros _)).append finish

theorem figures_scientificForm {digits : List Char} (all : ∀ c ∈ digits, isDigit c = true)
    (power : Int) : Figures (scientificForm digits power) := by
  have dot : Figures "." := by simp [Figures, isFigure]
  have exponent : Figures "e" := by simp [Figures, isFigure]
  have mark : Figures (if power < 0 then "-" else "+") := by
    split <;> simp [Figures, isFigure]
  have size : Figures (toString power.natAbs) := by
    rw [Nat.toString_eq_ofList_toDigits]
    exact figures_ofList fun _ => isDigit_of_mem_toDigits
  have fraction : Figures (if (digits.drop 1).isEmpty then ""
      else "." ++ String.ofList (digits.drop 1)) := by
    split
    · simp [Figures]
    · exact dot.append (figures_ofList fun c member => all c (List.mem_of_mem_drop member))
  have first : Figures (String.ofList (digits.take 1)) :=
    figures_ofList fun c member => all c (List.mem_of_mem_take member)
  exact (((first.append fraction).append exponent).append mark).append size

/-- In every layout a finite double is written with figures, and any other as the layout has it. -/
theorem Layout.text_cases (layout : Layout) (x : Float) :
    Figures (layout.text x) ∨ layout.text x = layout.undefined ∨
      ∃ negative, layout.text x = sign negative ++ layout.infinite := by
  unfold Layout.text
  split
  · exact Or.inr (Or.inl rfl)
  · rename_i negative _
    refine Or.inr (Or.inr ?_)
    split
    · exact ⟨false, String.empty_append.symm⟩
    · exact ⟨negative, rfl⟩
  · rename_i negative mantissa exponent _
    generalize (if mantissa = 0 then ⟨0, 0⟩ else shortest mantissa exponent : Scaled) = shown
    have digits : ∀ c ∈ Nat.toDigits 10 shown.digits, isDigit c = true :=
      fun _ => isDigit_of_mem_toDigits
    have form : ∀ (inRange point : Bool) (whole power : Int),
        Figures (if inRange then positionalForm (Nat.toDigits 10 shown.digits) whole point
          else scientificForm (Nat.toDigits 10 shown.digits) power) := by
      intro inRange point whole power
      cases inRange
      · exact figures_scientificForm digits power
      · exact figures_positionalForm digits whole point
    exact Or.inl ((figures_sign negative).append (form _ _ _ _))

theorem figures_text (x : Float) : Figures (Layout.json.text x) := by
  have null : Figures "null" := by simp [Figures, isFigure]
  rcases Layout.json.text_cases x with figures | undefined | ⟨negative, infinite⟩
  · exact figures
  · exact undefined ▸ null
  · exact infinite ▸ (figures_sign negative).append null

end SnippetAudit.Decimal
