import SnippetAudit.Proofs.Pattern.Search
import SnippetAudit.Proofs.Pattern.Token

/-!
Calls: a name and the parenthesis behind it, with blanks at most between the two. Many patterns look
for calls of some names; where these are spelt with letters, such a call begins at an edge if and
only if its name is not the end of a longer word.
-/

namespace SnippetAudit

open Text

/-- A name of some kind, blanks at most, and a parenthesis. -/
def IsCall (named : List Char → Prop) (used : List Char) : Prop :=
  ∃ name gap, used = name ++ gap ++ ['('] ∧ named name ∧ ∀ c ∈ gap, isBlank c = true

/-- Blanks, and at least one. -/
def IsGap (used : List Char) : Prop :=
  used ≠ [] ∧ ∀ c ∈ used, isBlank c = true

namespace IsCall

variable {named : List Char → Prop} {used : List Char}

theorem mono {wider : List Char → Prop} (within : ∀ name, named name → wider name)
    (call : IsCall named used) : IsCall wider used := by
  obtain ⟨name, gap, same, isNamed, gapBlank⟩ := call
  exact ⟨name, gap, same, within name isNamed, gapBlank⟩

theorem length_pos (call : IsCall named used) : 0 < used.length := by
  obtain ⟨name, gap, rfl, -, -⟩ := call
  rw [List.length_append]
  exact Nat.succ_pos _

theorem head?_any (letters : ∀ name, named name → name.head?.any isWord = true)
    (call : IsCall named used) : used.head?.any isWord = true := by
  obtain ⟨name, gap, rfl, isNamed, -⟩ := call
  have first := letters name isNamed
  cases name with
  | nil => cases first
  | cons c name => exact first

end IsCall

namespace Pattern

variable {place : Place} {used : List Char} {named : List Char → Prop} {name : Pattern}

theorem describes_anyCase (names : List String) :
    (anyCase names).Describes fun used => isAmong names used = true :=
  fun _ _ => takes_anyCase

theorem describes_someBlanks : someBlanks.Describes IsGap := by
  intro place used
  have parts := (describes_one isBlank).next (describes_many isBlank)
  rw [someBlanks, run, parts place used]
  refine and_congr_right fun _ => ?_
  constructor
  · rintro ⟨_, gap, rfl, ⟨c, rfl, blank⟩, gapBlank⟩
    exact ⟨List.cons_ne_nil c gap, List.forall_mem_cons.mpr ⟨blank, gapBlank⟩⟩
  · rintro ⟨some', blanks⟩
    obtain ⟨c, gap, rfl⟩ := List.exists_cons_of_ne_nil some'
    obtain ⟨blank, gapBlank⟩ := List.forall_mem_cons.mp blanks
    exact ⟨[c], gap, rfl, ⟨c, rfl, blank⟩, gapBlank⟩

theorem describes_call (described : name.Describes named) :
    (next name (next blanks (char '('))).Describes (IsCall named) := by
  intro place used
  have parts := described.next ((describes_many isBlank).next (describes_char '('))
  rw [blanks, parts place used]
  refine and_congr_right fun _ => ?_
  constructor
  · rintro ⟨word, _, rfl, isNamed, gap, _, rfl, gapBlank, rfl⟩
    exact ⟨word, gap, (List.append_assoc word gap _).symm, isNamed, gapBlank⟩
  · rintro ⟨word, gap, rfl, isNamed, gapBlank⟩
    exact ⟨word, gap ++ ['('], List.append_assoc word gap _, isNamed, gap, ['('], rfl, gapBlank, rfl⟩

/-- A name that ends in a word character has an edge behind it where it is called. -/
theorem takes_edge_call (described : name.Describes named)
    (letters : ∀ word, named word → word.getLast?.any isWord = true) :
    (next name (next edge (next blanks (char '(')))).Takes place used ↔
      (next name (next blanks (char '('))).Takes place used := by
  rw [takes_next, takes_next]
  simp only [takes_edge_next]
  constructor
  · rintro ⟨word, back, rfl, inName, -, others⟩
    exact ⟨word, back, rfl, inName, others⟩
  · rintro ⟨word, back, rfl, inName, others⟩
    refine ⟨word, back, rfl, inName, ?_, others⟩
    obtain ⟨inside, isNamed⟩ := (described place word).mp inName
    have last := letters word isNamed
    have some' : word ≠ [] := by
      rintro rfl
      cases last
    obtain ⟨⟨more, rest⟩, gap, _, rfl, gapBlank, rfl⟩ :=
      ((describes_many isBlank).next (describes_char '(') (place.after word.length) back).mp others
    have next : (place.rest.drop word.length).head?.any isWord = false := by
      rw [← Place.after_rest, ← rest]
      cases gap with
      | nil => exact (by decide : isWord '(' = false)
      | cons c gap => exact isWord_of_isBlank (gapBlank c List.mem_cons_self)
    rw [Place.isEdge_after inside some', last, next]
    rfl

/-- A call that begins at an edge is a call of a name that is not the end of a longer word. -/
theorem takes_call (described : name.Describes named)
    (letters : ∀ word, named word → word.head?.any isWord = true) :
    (sequence [edge, name, blanks, char '(']).Takes place used ↔
      used <+: place.rest ∧ place.before.any isWord = false ∧ IsCall named used := by
  have opens (inside : used <+: place.rest) (call : IsCall named used) :
      place.isEdge = !place.before.any isWord :=
    Place.isEdge_of_beginning inside (call.head?_any letters)
  simp only [sequence]
  rw [takes_edge_next, describes_call described place used]
  constructor
  · rintro ⟨edge, inside, call⟩
    rw [opens inside call, Bool.not_eq_true'] at edge
    exact ⟨inside, edge, call⟩
  · rintro ⟨inside, apart, call⟩
    rw [opens inside call, apart]
    exact ⟨rfl, inside, call⟩

end Pattern

end SnippetAudit
