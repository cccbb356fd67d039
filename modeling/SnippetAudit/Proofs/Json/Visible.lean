import SnippetAudit.Proofs.Json.Value

/-!
The characters of JSON text. Control characters are escaped in quotes and stand nowhere else, so a
value on one line stays on one line whatever texts are in it.
-/

namespace SnippetAudit.Json

open Text

variable {depth level : Nat}

theorem visible_of_isNumeric {c : Char} (numeric : isNumeric c = true) : 32 ≤ c.toNat := by
  simp only [isNumeric, isDigit, Bool.or_eq_true, Bool.and_eq_true, decide_eq_true_eq, beq_iff_eq,
    Char.le_def, UInt32.le_iff_toNat_le] at numeric
  rcases numeric with ((((digit | rfl) | rfl) | rfl) | rfl) | rfl
  · exact Nat.le_trans (by decide) digit.1
  all_goals decide

/-- No control character stands in a text. -/
def Visible (text : List Char) : Prop :=
  ∀ c ∈ text, 32 ≤ c.toNat

instance (text : List Char) : Decidable (Visible text) :=
  List.decidableBAll (fun c : Char => 32 ≤ c.toNat) text

theorem Visible.append {front back : List Char} (first : Visible front) (second : Visible back) :
    Visible (front ++ back) := by
  intro c member
  rcases List.mem_append.mp member with inFront | inBack
  · exact first c inFront
  · exact second c inBack

theorem visible_cons {c : Char} {text : List Char} (visible : 32 ≤ c.toNat) (rest : Visible text) :
    Visible (c :: text) := by
  intro d member
  rcases List.mem_cons.mp member with rfl | later
  · exact visible
  · exact rest d later

theorem visible_number {chars : List Char} {value : Data} (read : number? chars = some (value, [])) :
    Visible chars := by
  obtain ⟨used, whole, all, _⟩ := steady_number? _ _ _ read
  rw [List.append_nil] at whole
  intro c member
  exact visible_of_isNumeric (all c (whole ▸ member))

theorem visible_nil : Visible [] :=
  fun _ member => absurd member List.not_mem_nil

theorem visible_quoted (value : String) : Visible (quoted value) := by
  refine visible_cons (by decide) (Visible.append ?_ (visible_cons (by decide) visible_nil))
  intro c member
  obtain ⟨d, _, escaped⟩ := List.mem_flatMap.mp member
  exact visible_of_mem_escape escaped

theorem visible_nameText (name : String) : Visible (nameText .compact name) :=
  (visible_quoted name).append (visible_cons (by decide) visible_nil)

theorem visible_itemsText {items : List Data}
    (each : ∀ item ∈ items, Visible (text .compact level item)) :
    Visible (itemsText .compact level items) := by
  induction items with
  | nil => exact visible_nil
  | cons item items ih =>
    have later := ih fun other member => each other (.tail _ member)
    exact visible_cons (by decide) ((each item List.mem_cons_self).append later)

theorem visible_membersText {members : List (String × Data)}
    (each : ∀ member ∈ members, Visible (text .compact level member.2)) :
    Visible (membersText .compact level members) := by
  induction members with
  | nil => exact visible_nil
  | cons member members ih =>
    have later := ih fun other listed => each other (.tail _ listed)
    exact visible_cons (by decide)
      ((visible_nameText member.1).append ((each member List.mem_cons_self).append later))

/-- On one line, carried data is written without control characters. -/
theorem visible_text {value : Data} (carried : Carried depth value) (level : Nat) :
    Visible (text .compact level value) := by
  induction carried generalizing level with
  | null => exact (by decide : Visible ['n', 'u', 'l', 'l'])
  | bool value =>
    cases value
    · exact (by decide : Visible ['f', 'a', 'l', 's', 'e'])
    · exact (by decide : Visible ['t', 'r', 'u', 'e'])
  | @whole _ value small =>
    rw [text, toList_toString_natCast]
    exact visible_number (number?_toDigits small)
  | decimal back => exact visible_number (number?_of_readsBack back)
  | text value => exact visible_quoted value
  | @list _ items all ih =>
    cases items with
    | nil => exact visible_cons (by decide) (visible_cons (by decide) visible_nil)
    | cons first items =>
      have rest := visible_itemsText fun item member => ih item (.tail _ member) (level + 1)
      have close : Visible [']'] := visible_cons (by decide) visible_nil
      exact visible_cons (by decide)
        ((ih first List.mem_cons_self (level + 1)).append (rest.append close))
  | @table _ members all ih =>
    cases members with
    | nil => exact visible_cons (by decide) (visible_cons (by decide) visible_nil)
    | cons first members =>
      have rest := visible_membersText fun member listed => ih member (.tail _ listed) (level + 1)
      have close : Visible ['}'] := visible_cons (by decide) visible_nil
      exact visible_cons (by decide) ((visible_nameText first.1).append
        ((ih first List.mem_cons_self (level + 1)).append (rest.append close)))

end SnippetAudit.Json
