import SnippetAudit.Text.Blank
import SnippetAudit.Text.Word

/-!
Texts cut at the first character of a kind, and texts between blanks.
-/

namespace SnippetAudit.Text

theorem takeWhile_append_cons {kind : α → Bool} {front back : List α} {c : α}
    (all : ∀ a ∈ front, kind a = true) (no : kind c = false) :
    (front ++ c :: back).takeWhile kind = front := by
  rw [List.takeWhile_append_of_pos all, List.takeWhile_cons_of_neg (by simp [no]),
    List.append_nil]

/-- A text can be cut in one way only before the first character that is not of a kind. -/
theorem append_cons_inj {kind : α → Bool} {front other back later : List α} {c d : α}
    (all : ∀ a ∈ front, kind a = true) (no : kind c = false)
    (otherAll : ∀ a ∈ other, kind a = true) (otherNo : kind d = false)
    (same : front ++ c :: back = other ++ d :: later) : front = other ∧ c = d ∧ back = later := by
  have fronts : front = other := by
    rw [← takeWhile_append_cons all no, same, takeWhile_append_cons otherAll otherNo]
  subst other
  have backs := List.append_cancel_left same
  exact ⟨rfl, List.cons.inj backs⟩

theorem dropWhile_append_cons {kind : α → Bool} {front back : List α} {c : α}
    (all : ∀ a ∈ front, kind a = true) (no : kind c = false) :
    (front ++ c :: back).dropWhile kind = c :: back := by
  rw [List.dropWhile_append_of_pos all, List.dropWhile_cons_of_neg (by simp [no])]

theorem dropWhile_eq_nil_iff {kind : α → Bool} {text : List α} :
    text.dropWhile kind = [] ↔ ∀ a ∈ text, kind a = true := by
  constructor
  · intro empty
    have whole := List.takeWhile_append_dropWhile (p := kind) (l := text)
    rw [empty, List.append_nil] at whole
    rw [← whole]
    exact List.all_eq_true.mp List.all_takeWhile
  · intro all
    have dropped : (text ++ []).dropWhile kind = [] := List.dropWhile_append_of_pos all
    rwa [List.append_nil] at dropped

/-- A text does not go on with a character of a kind. -/
def Stops (kind : Char → Bool) (text : List Char) : Prop :=
  ∀ c ∈ text.head?, kind c = false

theorem stops_nil {kind : Char → Bool} : Stops kind [] := by
  intro c first
  exact absurd first (Option.not_mem_none c)

theorem stops_cons {kind : Char → Bool} {c : Char} {text : List Char} (no : kind c = false) :
    Stops kind (c :: text) := by
  intro d first
  rw [List.head?_cons, Option.mem_some_iff] at first
  rwa [← first]

theorem Stops.mono {kind smaller : Char → Bool} {text : List Char} (stops : Stops kind text)
    (within : ∀ c, smaller c = true → kind c = true) : Stops smaller text := by
  intro c first
  cases inside : smaller c with
  | false => rfl
  | true => exact absurd (within c inside) (by simp [stops c first])

theorem stops_dropWhile {kind : Char → Bool} (text : List Char) :
    Stops kind (text.dropWhile kind) := by
  intro c first
  have no := List.head?_dropWhile_not kind text
  rw [first] at no
  exact no

theorem Stops.front {kind : Char → Bool} {front text : List Char} (stops : Stops kind text)
    (inside : front <+: text) : Stops kind front := by
  obtain ⟨more, rfl⟩ := inside
  intro c first
  refine stops c ?_
  rw [List.head?_append, first, Option.some_or]
  rfl

theorem takeWhile_append_of_stops {kind : Char → Bool} {front back : List Char}
    (stops : Stops kind back) : (front ++ back).takeWhile kind = front.takeWhile kind := by
  induction front with
  | nil =>
    cases back with
    | nil => rfl
    | cons c back => rw [List.nil_append, List.takeWhile_cons_of_neg (by simp [stops c rfl])]; rfl
  | cons c front ih => rw [List.cons_append, List.takeWhile_cons, List.takeWhile_cons, ih]

theorem dropWhile_append_of_stops {kind : Char → Bool} {front back : List Char}
    (stops : Stops kind back) :
    (front ++ back).dropWhile kind = front.dropWhile kind ++ back := by
  have whole := List.takeWhile_append_dropWhile (p := kind) (l := front ++ back)
  rw [takeWhile_append_of_stops stops] at whole
  refine List.append_cancel_left (whole.trans ?_)
  rw [← List.append_assoc, List.takeWhile_append_dropWhile]

theorem bne_of_not_mem {c : Char} {text : List Char} (plain : c ∉ text) :
    ∀ d ∈ text, (d != c) = true := by
  intro d member
  have different : d ≠ c := by
    rintro rfl
    exact plain member
  simpa using different

/-- A text is blank if and only if nothing is left of it between the blanks at its ends. -/
theorem trim_eq_nil_iff {text : List Char} : trim text = [] ↔ ∀ c ∈ text, isBlank c = true := by
  simp only [trim, trimEnd, trimStart, List.reverse_eq_nil_iff, dropWhile_eq_nil_iff,
    List.mem_reverse]
  constructor
  · intro all
    rw [← List.takeWhile_append_dropWhile (p := isBlank) (l := text)]
    intro c member
    rcases List.mem_append.mp member with front | back
    · exact List.all_eq_true.mp List.all_takeWhile c front
    · exact all c back
  · intro all c member
    exact all c (List.dropWhile_subset isBlank member)

theorem stops_reverse_trim (text : List Char) : Stops isBlank (trim text).reverse := by
  rw [trim, trimEnd, List.reverse_reverse]
  exact stops_dropWhile _

theorem stops_trim (text : List Char) : Stops isBlank (trim text) := by
  refine (stops_dropWhile text).front (List.reverse_suffix.mp ?_)
  rw [trim, trimEnd, List.reverse_reverse]
  exact List.dropWhile_suffix isBlank

/-- The blanks at the end of a text can be taken off one by one or all at once. -/
theorem trimEnd_append_blanks {text gap : List Char} {c : Char} (no : isBlank c = false)
    (blanks : ∀ d ∈ gap, isBlank d = true) :
    trimEnd (text ++ c :: gap) = text ++ [c] := by
  have turned : (text ++ c :: gap).reverse = gap.reverse ++ c :: text.reverse := by simp
  rw [trimEnd, turned, dropWhile_append_cons (by simpa using blanks) no]
  simp

/-- No identifier has a blank in it. -/
theorem isBlank_of_continuesIdentifier {c : Char} (goesOn : continuesIdentifier c = true) :
    isBlank c = false := by
  have low : 0x24 ≤ c.toNat ∧ c.toNat ≤ 0x7A := by
    simp only [continuesIdentifier, startsIdentifier, Bool.or_eq_true, Bool.and_eq_true,
      decide_eq_true_eq, beq_iff_eq, Char.le_def, UInt32.le_iff_toNat_le] at goesOn
    rcases goesOn with (((letter | letter) | underscore) | dollar) | digit
    · exact ⟨Nat.le_trans (by decide) letter.1, letter.2⟩
    · exact ⟨Nat.le_trans (by decide) letter.1, Nat.le_trans letter.2 (by decide)⟩
    · subst underscore; decide
    · subst dollar; decide
    · exact ⟨Nat.le_trans (by decide) digit.1, Nat.le_trans digit.2 (by decide)⟩
  simp only [isBlank, Bool.or_eq_false_iff, Bool.and_eq_false_iff, decide_eq_false_iff_not,
    beq_eq_false_iff_ne]
  omega

/-- The code points of the blanks, one by one. -/
def blankPoints : List Nat :=
  List.range' 0x9 5 ++ [0x20, 0x85, 0xA0, 0x1680] ++ List.range' 0x2000 11 ++
    [0x2028, 0x2029, 0x202F, 0x205F, 0x3000]

/-- No word has a blank in it. -/
theorem isWord_of_isBlank {c : Char} (blank : isBlank c = true) : isWord c = false := by
  have listed : c.toNat ∈ blankPoints := by
    simp only [isBlank, Bool.or_eq_true, Bool.and_eq_true, decide_eq_true_eq, beq_iff_eq] at blank
    simp only [blankPoints, List.mem_append, List.mem_range'_1, List.mem_cons, List.not_mem_nil,
      or_false]
    omega
  have noWord : ∀ point ∈ blankPoints, isWord (Char.ofNat point) = false := by decide +kernel
  rw [← Char.ofNat_toNat c]
  exact noWord _ listed

theorem continuesIdentifier_of_startsIdentifier {c : Char} (begins : startsIdentifier c = true) :
    continuesIdentifier c = true := by
  rw [continuesIdentifier, begins, Bool.true_or]

end SnippetAudit.Text
