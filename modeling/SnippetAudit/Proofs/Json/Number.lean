import SnippetAudit.Json.Number
import SnippetAudit.Proofs.Text.Digit

/-!
Numbers in JSON text. A number is read up to its last character and no further, so what stands
behind it is of no account unless it goes on with the number.
-/

namespace SnippetAudit.Json

open Text

def isNumeric (c : Char) : Bool :=
  isDigit c || c == '-' || c == '+' || c == '.' || c == 'e' || c == 'E'

theorem isNumeric_of_isDigit {c : Char} (digit : isDigit c = true) : isNumeric c = true := by
  simp [isNumeric, digit]

theorem stops_isDigit {rest : List Char} (stops : Stops isNumeric rest) : Stops isDigit rest :=
  stops.mono fun _ digit => isNumeric_of_isDigit digit

theorem isNumeric_of_mem_takeWhile {text : List Char} :
    ∀ c ∈ text.takeWhile isDigit, isNumeric c = true := by
  intro c member
  exact isNumeric_of_isDigit (List.all_eq_true.mp List.all_takeWhile c member)

/-- A reader takes characters of numbers only, and the same ones whatever stands behind them. -/
def Steady (read : List Char → Option (α × List Char)) : Prop :=
  ∀ text value left, read text = some (value, left) →
    ∃ used, text = used ++ left ∧ (∀ c ∈ used, isNumeric c = true) ∧
      ∀ rest, Stops isNumeric rest → read (text ++ rest) = some (value, left ++ rest)

def power? (negative : Bool) (text : List Char) : Option (Int × List Char) :=
  let digits := text.takeWhile isDigit
  if digits.isEmpty then none
  else
    let size := numberOf 10 digits
    some (if negative then -(size : Int) else size, text.dropWhile isDigit)

theorem steady_power? (negative : Bool) : Steady (power? negative) := by
  intro text power left found
  simp only [power?] at found
  split at found
  · exact absurd found (by simp)
  · rename_i digits
    cases found
    refine ⟨text.takeWhile isDigit, List.takeWhile_append_dropWhile.symm,
      isNumeric_of_mem_takeWhile, ?_⟩
    intro rest stops
    have apart := stops_isDigit stops
    simp only [power?, takeWhile_append_of_stops apart, dropWhile_append_of_stops apart,
      if_neg digits]

theorem exponent?_cons (c : Char) (text : List Char) :
    exponent? (c :: text) =
      if c = '+' then power? false text
      else if c = '-' then power? true text
      else power? false (c :: text) := by
  by_cases plus : c = '+'
  · subst plus; rfl
  · by_cases minus : c = '-'
    · subst minus; rfl
    · rw [if_neg plus, if_neg minus]
      unfold exponent?
      split
      rename_i signed
      split at signed
      · exact absurd (List.cons.inj ‹_›).1 plus
      · exact absurd (List.cons.inj ‹_›).1 minus
      · cases signed
        rfl

/-- A reader that takes one more character of numbers before it goes on. -/
theorem Steady.cons {read : List Char → Option (α × List Char)} (steady : Steady read) {c : Char}
    (numeric : isNumeric c = true) {text left : List Char} {value : α}
    (found : read text = some (value, left)) :
    ∃ used, c :: text = used ++ left ∧ (∀ d ∈ used, isNumeric d = true) ∧
      ∀ rest, Stops isNumeric rest → read (text ++ rest) = some (value, left ++ rest) := by
  obtain ⟨used, rfl, all, more⟩ := steady text value left found
  refine ⟨c :: used, rfl, ?_, more⟩
  intro d member
  rcases List.mem_cons.mp member with rfl | later
  · exact numeric
  · exact all d later

theorem steady_exponent? : Steady exponent? := by
  intro text power left found
  cases text with
  | nil => exact absurd found (by simp [exponent?])
  | cons c text =>
    simp only [exponent?_cons, List.cons_append] at found ⊢
    by_cases plus : c = '+'
    · simp only [if_pos plus] at found ⊢
      exact (steady_power? false).cons (by rw [plus]; rfl) found
    · by_cases minus : c = '-'
      · simp only [if_neg plus, if_pos minus] at found ⊢
        exact (steady_power? true).cons (by rw [minus]; rfl) found
      · simp only [if_neg plus, if_neg minus] at found ⊢
        exact steady_power? false (c :: text) power left found

/-- What is read of a number behind its digits: an exponent, if there is one. A number without one
is whole if it is plain. -/
def ending (negative plain : Bool) (s : Significand) (text : List Char) :
    Option (Data × List Char) :=
  match text with
  | c :: later =>
    if c = 'e' ∨ c = 'E' then
      (exponent? later).bind fun (power, left) =>
        (double? negative { s with power := s.power + power }).map (·, left)
    else (if plain then whole? negative s else double? negative s).map (·, text)
  | [] => (if plain then whole? negative s else double? negative s).map (·, text)

/-- Nothing of a text that cannot go on with a number is taken. -/
theorem ending_of_stops {negative plain : Bool} {s : Significand} {text : List Char}
    (stops : Stops isNumeric text) :
    ending negative plain s text =
      (if plain then whole? negative s else double? negative s).map (·, text) := by
  cases text with
  | nil => rfl
  | cons c later =>
    have other : ¬(c = 'e' ∨ c = 'E') := by
      have no := stops c rfl
      rintro (rfl | rfl) <;> exact absurd no (by decide)
    rw [ending, if_neg other]

theorem steady_ending (negative plain : Bool) (s : Significand) :
    Steady (ending negative plain s) := by
  intro text value left found
  cases text with
  | nil =>
    rw [ending_of_stops stops_nil] at found
    obtain ⟨data, read, same⟩ := Option.map_eq_some_iff.mp found
    cases same
    refine ⟨[], rfl, fun c member => absurd member List.not_mem_nil, ?_⟩
    intro rest stops
    rw [List.nil_append, ending_of_stops stops, read]
    rfl
  | cons c later =>
    simp only [ending, List.cons_append] at found ⊢
    by_cases exponent : c = 'e' ∨ c = 'E'
    · simp only [if_pos exponent] at found ⊢
      obtain ⟨⟨power, behind⟩, read, rest⟩ := Option.bind_eq_some_iff.mp found
      obtain ⟨data, scaled, same⟩ := Option.map_eq_some_iff.mp rest
      cases same
      have numeric : isNumeric c = true := by rcases exponent with rfl | rfl <;> rfl
      obtain ⟨used, whole, all, more⟩ := steady_exponent?.cons numeric read
      refine ⟨used, whole, all, ?_⟩
      intro rest stops
      rw [more rest stops]
      simp [scaled]
    · simp only [if_neg exponent] at found ⊢
      obtain ⟨data, read, same⟩ := Option.map_eq_some_iff.mp found
      cases same
      refine ⟨[], rfl, fun c member => absurd member List.not_mem_nil, ?_⟩
      intro rest _
      rw [read]
      rfl

/-- What is read of a number behind the digits it starts with. -/
def continued (negative : Bool) (s : Significand) (text : List Char) :
    Option (Data × List Char) :=
  match text with
  | '.' :: later =>
    let fraction := later.takeWhile isDigit
    if fraction.isEmpty then none
    else ending negative false (fraction.foldl Significand.takeFraction { s with full := false })
      (later.dropWhile isDigit)
  | later => ending negative true s later

theorem continued_of_ne_point {negative : Bool} {s : Significand} {text : List Char}
    (plain : text.head? ≠ some '.') : continued negative s text = ending negative true s text := by
  unfold continued
  split
  · exact absurd rfl plain
  · rfl

theorem steady_continued (negative : Bool) (s : Significand) : Steady (continued negative s) := by
  intro text value left found
  by_cases point : text.head? = some '.'
  · obtain ⟨later, rfl⟩ := List.head?_eq_some_iff.mp point
    simp only [continued] at found
    split at found
    · exact absurd found (by simp)
    · rename_i fraction
      obtain ⟨used, whole, all, more⟩ := steady_ending _ _ _ _ _ _ found
      refine ⟨'.' :: (later.takeWhile isDigit ++ used), ?_, ?_, ?_⟩
      · rw [List.cons_append, List.append_assoc, ← whole, List.takeWhile_append_dropWhile]
      · intro c member
        rcases List.mem_cons.mp member with rfl | member
        · rfl
        · rcases List.mem_append.mp member with digit | behind
          · exact isNumeric_of_mem_takeWhile c digit
          · exact all c behind
      · intro rest stops
        have apart := stops_isDigit stops
        simp only [List.cons_append, continued, takeWhile_append_of_stops apart,
          dropWhile_append_of_stops apart, if_neg fraction, more rest stops]
  · rw [continued_of_ne_point point] at found
    obtain ⟨used, whole, all, more⟩ := steady_ending _ _ _ _ _ _ found
    refine ⟨used, whole, all, ?_⟩
    intro rest stops
    rw [continued_of_ne_point, more rest stops]
    cases text with
    | nil =>
      intro starts
      exact absurd (stops '.' starts) (by decide)
    | cons c text => exact point

def unsigned? (negative : Bool) (text : List Char) : Option (Data × List Char) :=
  let digits := text.takeWhile isDigit
  if digits.isEmpty ∨ (digits.head? = some '0' ∧ 1 < digits.length) then none
  else continued negative (digits.foldl Significand.takeWhole ⟨0, 0, false⟩)
    (text.dropWhile isDigit)

theorem steady_unsigned? (negative : Bool) : Steady (unsigned? negative) := by
  intro text value left found
  simp only [unsigned?] at found
  split at found
  · exact absurd found (by simp)
  · rename_i digits
    obtain ⟨used, whole, all, more⟩ := steady_continued _ _ _ _ _ found
    refine ⟨text.takeWhile isDigit ++ used, ?_, ?_, ?_⟩
    · rw [List.append_assoc, ← whole, List.takeWhile_append_dropWhile]
    · intro c member
      rcases List.mem_append.mp member with digit | behind
      · exact isNumeric_of_mem_takeWhile c digit
      · exact all c behind
    · intro rest stops
      have apart := stops_isDigit stops
      simp only [unsigned?, takeWhile_append_of_stops apart, dropWhile_append_of_stops apart,
        if_neg digits, more rest stops]

theorem number?_of_ne_minus {text : List Char} (plain : text.head? ≠ some '-') :
    number? text = unsigned? false text := by
  unfold number?
  split
  rename_i signed
  split at signed
  · exact absurd rfl plain
  · cases signed
    rfl

theorem number?_nil : number? [] = none := rfl

theorem steady_number? : Steady number? := by
  intro text value left found
  cases text with
  | nil => exact absurd found (by simp [number?_nil])
  | cons c text =>
    by_cases minus : c = '-'
    · subst minus
      exact (steady_unsigned? true).cons rfl found
    · have plain : ∀ more, (c :: more).head? ≠ some '-' := by
        intro more same
        exact minus (Option.some.inj same)
      rw [number?_of_ne_minus (plain text)] at found
      obtain ⟨used, whole, all, more⟩ := steady_unsigned? false _ _ _ found
      refine ⟨used, whole, all, ?_⟩
      intro rest stops
      rw [List.cons_append, number?_of_ne_minus (plain _), ← List.cons_append, more rest stops]

theorem number?_cons_of_not_numeric {c : Char} {text : List Char} (other : isNumeric c = false) :
    number? (c :: text) = none := by
  have plain : (c :: text).head? ≠ some '-' := by
    intro same
    cases Option.some.inj same
    exact absurd other (by decide)
  have digit : isDigit c = false := by
    cases digit : isDigit c with
    | false => rfl
    | true => exact absurd (isNumeric_of_isDigit digit) (by simp [other])
  rw [number?_of_ne_minus plain, unsigned?, List.takeWhile_cons_of_neg (by simp [digit])]
  rfl

theorem foldl_takeWhole_toDigits {n : Nat} (small : n < Nat.pow 2 64) :
    (Nat.toDigits 10 n).foldl Significand.takeWhole ⟨0, 0, false⟩ = ⟨n, 0, false⟩ := by
  induction n using Nat.strongRecOn with
  | ind n ih =>
    rw [Nat.toDigits_eq_if (by decide)]
    split
    · rename_i single
      simp only [List.foldl_cons, List.foldl_nil, Significand.takeWhole, digitValue_digitChar single,
        Nat.zero_mul, Nat.zero_add, if_pos small]
      rfl
    · rename_i large
      have value : n / 10 * 10 + n % 10 = n := by omega
      rw [List.foldl_append, ih (n / 10) (by omega) (by omega)]
      simp only [List.foldl_cons, List.foldl_nil, Significand.takeWhole,
        digitValue_digitChar (Nat.mod_lt n (by decide)), value, if_pos small]
      rfl

/-- A whole number that 64 bits hold is read as it was written. -/
theorem number?_toDigits {n : Nat} (small : n < Nat.pow 2 64) :
    number? (Nat.toDigits 10 n) = some (.whole n, []) := by
  have digits : ∀ c ∈ Nat.toDigits 10 n, isDigit c = true := fun _ => isDigit_of_mem_toDigits
  have plain : (Nat.toDigits 10 n).head? ≠ some '-' := by
    intro first
    exact absurd (digits '-' (List.mem_of_mem_head? first)) (by decide)
  have leading : ¬((Nat.toDigits 10 n).isEmpty ∨
      ((Nat.toDigits 10 n).head? = some '0' ∧ 1 < (Nat.toDigits 10 n).length)) := by
    rintro (empty | ⟨zero, long⟩)
    · exact Nat.toDigits_ne_nil (List.isEmpty_iff.mp empty)
    · rcases Nat.eq_zero_or_pos n with rfl | positive
      · exact absurd long (by decide)
      · exact head?_toDigits_ne_zero positive zero
  have behind : (Nat.toDigits 10 n).dropWhile isDigit = [] := dropWhile_eq_nil_iff.mpr digits
  have whole := List.takeWhile_append_dropWhile (p := isDigit) (l := Nat.toDigits 10 n)
  rw [behind, List.append_nil] at whole
  rw [number?_of_ne_minus plain, unsigned?, whole, behind, if_neg leading,
    foldl_takeWhole_toDigits small]
  rfl

end SnippetAudit.Json
