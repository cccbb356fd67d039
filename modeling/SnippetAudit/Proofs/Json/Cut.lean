import SnippetAudit.Proofs.Json.Value

/-!
Texts that are cut off and go on with something else. Quoted texts, numbers and words come first: of
what is left of them nothing is read that a mark could stand behind.
-/

namespace SnippetAudit.Json

open Text

variable {fuel depth level : Nat} {front rest left behind : List Char} {value found : Data}

/-- The start of a text that lacks some of its end. -/
def Cut (front text : List Char) : Prop :=
  ∃ missing, missing ≠ [] ∧ front ++ missing = text

theorem not_cut_nil : ¬Cut front [] := by
  rintro ⟨missing, some', same⟩
  exact some' (List.append_eq_nil_iff.mp same).2

theorem cut_cons {c : Char} {text : List Char} (cut : Cut front (c :: text)) :
    front = [] ∨ ∃ behind, front = c :: behind ∧ Cut behind text := by
  obtain ⟨missing, some', same⟩ := cut
  cases front with
  | nil => exact Or.inl rfl
  | cons d front =>
    obtain ⟨rfl, rest⟩ := List.cons.inj same
    exact Or.inr ⟨front, rfl, missing, some', rest⟩

/-- A text of two parts is cut in the first of them or in the second. -/
theorem cut_append {first second : List Char} (cut : Cut front (first ++ second)) :
    Cut front first ∨ ∃ behind, front = first ++ behind ∧ Cut behind second := by
  induction first generalizing front with
  | nil => exact Or.inr ⟨front, rfl, cut⟩
  | cons c first ih =>
    rcases cut_cons cut with rfl | ⟨behind, rfl, inside⟩
    · exact Or.inl ⟨c :: first, List.cons_ne_nil c first, rfl⟩
    · rcases ih inside with ⟨missing, some', same⟩ | ⟨later, rfl, inSecond⟩
      · exact Or.inl ⟨missing, some', by rw [List.cons_append, same]⟩
      · exact Or.inr ⟨later, rfl, inSecond⟩

theorem Cut.head? {text : List Char} (cut : Cut front text) {c : Char}
    (first : front.head? = some c) : text.head? = some c := by
  obtain ⟨missing, _, rfl⟩ := cut
  rw [List.head?_append, first]
  rfl

/-- The characters that may stand behind a value or a name. -/
def follows (c : Char) : Bool :=
  isGap c || c == ',' || c == ':' || c == ']' || c == '}'

theorem follows_of_isNumeric {c : Char} (numeric : isNumeric c = true) : follows c = false := by
  cases marked : follows c with
  | false => rfl
  | true =>
    simp only [follows, Bool.or_eq_true, beq_iff_eq] at marked
    rcases marked with (((gap | rfl) | rfl) | rfl) | rfl
    · rw [isGap_of_isNumeric numeric] at gap
      cases gap
    all_goals exact absurd numeric (by decide)

theorem skipGap_of_stops_follows (stops : Stops follows left) : skipGap left = left := by
  cases left with
  | nil => rfl
  | cons c more =>
    refine skipGap_cons ?_ more
    cases gap : isGap c with
    | false => rfl
    | true =>
      have marked := stops c rfl
      rw [follows, gap] at marked
      cases marked

theorem not_skipGap_of_stops_follows {c : Char} (stops : Stops follows left)
    (mark : follows c = true) : skipGap left ≠ c :: behind := by
  intro starts
  rw [skipGap_of_stops_follows stops] at starts
  have no := stops c (by rw [starts]; rfl)
  rw [mark] at no
  cases no

/-- A text that goes on with nothing that has been begun: it is empty or starts with the brace of a
table, and no mark stands behind what is read of it, as a value or as the rest of a quoted text. -/
structure Alien (rest : List Char) : Prop where
  start : rest = [] ∨ ∃ more, rest = '{' :: more
  value : ∀ {fuel depth : Nat} {value : Data} {left : List Char},
    readValue fuel depth rest = some (value, left) → Stops follows left
  quoted : ∀ {found : List Char} {value : String} {left : List Char},
    readQuoted found rest = some (value, left) → Stops follows left

namespace Alien

theorem stops (alien : Alien rest) {kind : Char → Bool} (no : kind '{' = false) :
    Stops kind rest := by
  rcases alien.start with rfl | ⟨more, rfl⟩
  · exact stops_nil
  · exact stops_cons no

theorem nil : Alien [] where
  start := Or.inl rfl
  value read := by
    obtain ⟨c, behind, start⟩ := exists_skipGap_of_readValue read
    cases start
  quoted read := by cases read

theorem append_ne (alien : Alien rest) {word : List Char} (cut : Cut front word)
    (plain : '{' ∉ word) : front ++ rest ≠ word ++ left := by
  obtain ⟨missing, some', rfl⟩ := cut
  intro same
  rw [List.append_assoc] at same
  have ends : rest = missing ++ left := List.append_cancel_left same
  obtain ⟨c, more, rfl⟩ := List.exists_cons_of_ne_nil some'
  rcases alien.start with rfl | ⟨more, rfl⟩
  · cases ends
  · have brace : '{' = c := (List.cons.inj ends).1
    exact plain (List.mem_append_right front (brace ▸ List.mem_cons_self))

end Alien

theorem unit?_of_brace {a b c d : Char} (brace : '{' ∈ [a, b, c, d]) : unit? a b c d = none := by
  refine if_neg fun digits => ?_
  exact absurd (List.all_eq_true.mp digits '{' brace) (by decide)

/-- No text is read behind an escape that lacks some of its four digits. -/
theorem readQuoted_unit_eq_none {found text : List Char}
    (broken : ∀ a b c d more, text = a :: b :: c :: d :: more → unit? a b c d = none) :
    readQuoted found ('\\' :: 'u' :: text) = none := by
  match text with
  | a :: b :: c :: d :: more => rw [readQuoted, broken a b c d more rfl]
  | [] | [_] | [_, _] | [_, _, _] => rfl

namespace Alien

theorem readQuoted_backslash (alien : Alien rest) {found : List Char} :
    readQuoted found ('\\' :: rest) = none := by
  rcases alien.start with rfl | ⟨more, rfl⟩
  · rfl
  · rw [readQuoted_letter (by decide)]
    rfl

theorem readQuoted_digits (alien : Alien rest) {found digits : List Char}
    (short : digits.length < 4) : readQuoted found ('\\' :: 'u' :: (digits ++ rest)) = none := by
  refine readQuoted_unit_eq_none fun a b c d more whole => unit?_of_brace ?_
  rcases alien.start with rfl | ⟨later, rfl⟩
  · rw [List.append_nil] at whole
    rw [whole] at short
    simp only [List.length_cons] at short
    omega
  · have place : (digits ++ '{' :: later)[digits.length]? = some '{' := by simp
    have four : a :: b :: c :: d :: more = [a, b, c, d] ++ more := rfl
    rw [whole, four, List.getElem?_append_left short] at place
    exact List.mem_of_getElem? place

theorem stops_of_readQuoted_escape (alien : Alien rest) {found : List Char} {c : Char}
    (cut : Cut front (escape c)) {value : String}
    (read : readQuoted found (front ++ rest) = some (value, left)) : Stops follows left := by
  rcases escape_cases c with ⟨same, _⟩ | ⟨letter, same, _⟩ | ⟨same, _⟩
  · rw [same] at cut
    rcases cut_cons cut with rfl | ⟨behind, rfl, later⟩
    · exact alien.quoted read
    · exact absurd later not_cut_nil
  · rw [same] at cut
    rcases cut_cons cut with rfl | ⟨behind, rfl, later⟩
    · exact alien.quoted read
    rcases cut_cons later with rfl | ⟨more, rfl, last⟩
    · rw [List.singleton_append, alien.readQuoted_backslash] at read
      cases read
    · exact absurd last not_cut_nil
  · rw [same] at cut
    rcases cut_cons cut with rfl | ⟨behind, rfl, later⟩
    · exact alien.quoted read
    rcases cut_cons later with rfl | ⟨digits, rfl, missing, some', last⟩
    · rw [List.singleton_append, alien.readQuoted_backslash] at read
      cases read
    · have short : digits.length < 4 := by
        have positive : 0 < missing.length := List.length_pos_iff.mpr some'
        have size := congrArg List.length last
        rw [List.length_append] at size
        simp only [List.length_cons, List.length_nil] at size
        omega
      rw [List.cons_append, List.cons_append, alien.readQuoted_digits short] at read
      cases read

/-- No mark stands behind what is read of a quoted text that is cut off. -/
theorem stops_of_readQuoted_cut (alien : Alien rest) {found text : List Char}
    (cut : Cut front (text.flatMap escape ++ ['"'])) {value : String}
    (read : readQuoted found (front ++ rest) = some (value, left)) : Stops follows left := by
  induction text generalizing front found with
  | nil =>
    rcases cut_cons cut with rfl | ⟨behind, rfl, inside⟩
    · exact alien.quoted read
    · exact absurd inside not_cut_nil
  | cons c text ih =>
    rw [List.flatMap_cons, List.append_assoc] at cut
    rcases cut_append cut with inFirst | ⟨behind, rfl, later⟩
    · exact alien.stops_of_readQuoted_escape inFirst read
    · rw [List.append_assoc, readQuoted_escape] at read
      exact ih later read

end Alien

def words : List (List Char) :=
  [['n', 'u', 'l', 'l'], ['t', 'r', 'u', 'e'], ['f', 'a', 'l', 's', 'e']]

theorem eq_of_mem_words {word other : List Char} (listed : word ∈ words)
    (otherListed : other ∈ words) (same : word.head? = other.head?) : word = other := by
  simp only [words, List.mem_cons, List.not_mem_nil, or_false] at listed otherListed
  rcases listed with rfl | rfl | rfl <;> rcases otherListed with rfl | rfl | rfl <;>
    first | rfl | cases same

theorem head?_of_mem_words {word : List Char} {c : Char} (listed : word ∈ words)
    (head : word.head? = some c) : c = 'n' ∨ c = 't' ∨ c = 'f' := by
  simp only [words, List.mem_cons, List.not_mem_nil, or_false] at listed
  rcases listed with rfl | rfl | rfl <;> cases head <;> simp

theorem brace_not_mem_words {word : List Char} (listed : word ∈ words) : '{' ∉ word := by
  simp only [words, List.mem_cons, List.not_mem_nil, or_false] at listed
  rcases listed with rfl | rfl | rfl <;> decide

/-- The first character of a text says what may be read of it. -/
theorem readValue_cons_cases {c : Char} {text : List Char} (visible : isGap c = false)
    (read : readValue fuel depth (c :: text) = some (value, left)) :
    (∃ word ∈ words, c :: text = word ++ left) ∨
      (c = '"' ∧ ∃ name, readQuoted [] text = some (name, left)) ∨
      (c = '[' ∧ (skipGap text = ']' :: left ∨
        ∃ fuel depth, readItems fuel depth [] text = some (value, left))) ∨
      (c = '{' ∧ (skipGap text = '}' :: left ∨
        ∃ fuel depth, readMembers fuel depth [] text = some (value, left))) ∨
      (isNumeric c = true ∧ number? (c :: text) = some (value, left)) := by
  have whole : skipGap (c :: text) = c :: text := skipGap_cons visible text
  cases fuel with
  | zero => cases read
  | succ fuel =>
    cases readValue_eq_some_iff.mp read with
    | null start => exact Or.inl ⟨['n', 'u', 'l', 'l'], by decide, whole.symm.trans start⟩
    | yes start => exact Or.inl ⟨['t', 'r', 'u', 'e'], by decide, whole.symm.trans start⟩
    | no start => exact Or.inl ⟨['f', 'a', 'l', 's', 'e'], by decide, whole.symm.trans start⟩
    | text start quoted =>
      obtain ⟨rfl, rfl⟩ := List.cons.inj (whole.symm.trans start)
      exact Or.inr (Or.inl ⟨rfl, _, quoted⟩)
    | emptyList _ start closes =>
      obtain ⟨rfl, rfl⟩ := List.cons.inj (whole.symm.trans start)
      exact Or.inr (Or.inr (Or.inl ⟨rfl, Or.inl closes⟩))
    | list _ start _ items =>
      obtain ⟨rfl, rfl⟩ := List.cons.inj (whole.symm.trans start)
      exact Or.inr (Or.inr (Or.inl ⟨rfl, Or.inr ⟨_, _, items⟩⟩))
    | emptyTable _ start closes =>
      obtain ⟨rfl, rfl⟩ := List.cons.inj (whole.symm.trans start)
      exact Or.inr (Or.inr (Or.inr (Or.inl ⟨rfl, Or.inl closes⟩)))
    | table _ start _ members =>
      obtain ⟨rfl, rfl⟩ := List.cons.inj (whole.symm.trans start)
      exact Or.inr (Or.inr (Or.inr (Or.inl ⟨rfl, Or.inr ⟨_, _, members⟩⟩)))
    | number number =>
      rw [whole] at number
      exact Or.inr (Or.inr (Or.inr (Or.inr ⟨isNumeric_of_number? number, number⟩)))

theorem head_of_word {c : Char} {text word : List Char} (listed : word ∈ words)
    (same : c :: text = word ++ left) : c = 'n' ∨ c = 't' ∨ c = 'f' := by
  cases word with
  | nil => exact absurd listed (by decide)
  | cons d word =>
    have first : c = d := (List.cons.inj same).1
    exact head?_of_mem_words listed (congrArg some first.symm)

theorem number?_of_readValue_cons {c : Char} {text : List Char} (numeric : isNumeric c = true)
    (read : readValue fuel depth (c :: text) = some (value, left)) :
    number? (c :: text) = some (value, left) := by
  rcases readValue_cons_cases (isGap_of_isNumeric numeric) read with
    ⟨word, listed, same⟩ | ⟨rfl, _⟩ | ⟨rfl, _⟩ | ⟨rfl, _⟩ | ⟨_, number⟩
  · rcases head_of_word listed same with rfl | rfl | rfl <;> exact absurd numeric (by decide)
  · exact absurd numeric (by decide)
  · exact absurd numeric (by decide)
  · exact absurd numeric (by decide)
  · exact number

/-- A number that is cut off is read up to a character of its own or to its cut. -/
theorem Alien.stops_of_number_cut (alien : Alien rest) {chars : List Char}
    (number : number? chars = some (value, [])) (cut : Cut front chars) (some' : front ≠ [])
    (read : readValue fuel depth (front ++ rest) = some (found, left)) : Stops follows left := by
  obtain ⟨used, parts, all, _⟩ := steady_number? _ _ _ number
  have numeric : ∀ c ∈ front, isNumeric c = true := by
    obtain ⟨missing, _, rfl⟩ := cut
    rw [List.append_nil] at parts
    exact fun c member => all c (parts ▸ List.mem_append_left missing member)
  obtain ⟨c, more, rfl⟩ := List.exists_cons_of_ne_nil some'
  have part : number? (c :: more ++ rest) = some (found, left) :=
    number?_of_readValue_cons (numeric c List.mem_cons_self) read
  obtain ⟨taken, whole, allTaken, _⟩ := steady_number? _ _ _ part
  rcases List.append_eq_append_iff.mp whole with ⟨later, rfl, same⟩ | ⟨later, same, rfl⟩
  · cases later with
    | nil =>
      rw [List.nil_append] at same
      rw [← same]
      exact alien.stops rfl
    | cons d later =>
      have stops : Stops isNumeric rest := alien.stops rfl
      have starts : isNumeric d = false := stops d (by rw [same]; rfl)
      rw [allTaken d (List.mem_append_right _ List.mem_cons_self)] at starts
      cases starts
  · cases later with
    | nil => exact alien.stops rfl
    | cons d later =>
      refine stops_cons (follows_of_isNumeric (numeric d ?_))
      rw [same]
      exact List.mem_append_right taken List.mem_cons_self

/-- No mark stands behind what is read of the text of a value that is cut off. -/
def Severed (value : Data) : Prop :=
  ∀ ⦃level fuel depth : Nat⦄ ⦃front rest left : List Char⦄ ⦃found : Data⦄,
    Cut front (text .compact level value) → front ≠ [] → Alien rest →
      readValue fuel depth (front ++ rest) = some (found, left) → Stops follows left

theorem Alien.readValue_word (alien : Alien rest) {word : List Char} (listed : word ∈ words)
    (cut : Cut front word) (some' : front ≠ []) :
    readValue fuel depth (front ++ rest) = none := by
  refine Option.eq_none_iff_forall_ne_some.mpr fun ⟨value, left⟩ read => ?_
  obtain ⟨c, more, rfl⟩ := List.exists_cons_of_ne_nil some'
  have head : word.head? = some c := cut.head? rfl
  have letter := head?_of_mem_words listed head
  have visible : isGap c = false := by rcases letter with rfl | rfl | rfl <;> rfl
  rcases readValue_cons_cases visible read with
    ⟨other, otherListed, same⟩ | ⟨rfl, _⟩ | ⟨rfl, _⟩ | ⟨rfl, _⟩ | ⟨numeric, _⟩
  · have heads : other.head? = some c := by
      cases other with
      | nil => exact absurd otherListed (by decide)
      | cons d other => exact congrArg some (List.cons.inj same).1.symm
    rw [← eq_of_mem_words listed otherListed (head.trans heads.symm)] at same
    exact alien.append_ne cut (brace_not_mem_words listed) same
  · exact absurd letter (by decide)
  · exact absurd letter (by decide)
  · exact absurd letter (by decide)
  · rcases letter with rfl | rfl | rfl <;> exact absurd numeric (by decide)

end SnippetAudit.Json
