import Mathlib.Data.List.Basic
import SnippetAudit.Detector
import SnippetAudit.Proofs.Pattern.Call

/-!
Requests for memory. The search for them closes every spelling with one edge, behind a letter and
behind a bracket alike. So a name is met as a whole word only, and an opening bracket only where a
word character comes right behind it.
-/

namespace SnippetAudit

open Text

/-- Functions whose calls ask for memory. -/
def allocators : List String :=
  ["malloc", "calloc", "realloc"]

/-- The types with a plain name whose construction allocates. -/
def builtTypes : List String :=
  ["Array", "Vector", "List", "Map", "Set", "Object", "Promise", "string"]

/-- The types of buffers, with the bracket that opens their length. -/
def bufferOpenings : List String :=
  ["int[", "float[", "double[", "char["]

/-- The types of buffers of no given length. -/
def emptyBuffers : List String :=
  ["int[]", "float[]", "char[]", "double[]"]

/-- The word `new`, blanks and a type. -/
def IsNew (types : List String) (used : List Char) : Prop :=
  ∃ word gap type, used = word ++ gap ++ type ∧ isAmong ["new"] word = true ∧ IsGap gap ∧
    isAmong types type = true

/-- A request for memory that ends with a name. -/
def IsRequest (used : List Char) : Prop :=
  isAmong allocators used = true ∨ IsNew builtTypes used

/-- A request for memory up to the bracket that opens its details. -/
def IsOpening (used : List Char) : Prop :=
  isAmong Pattern.growingTypes used = true ∨ IsNew bufferOpenings used

/-- Memory is asked for: not as the end of a longer word, by a name that is not the beginning of a
longer one, or by an opening, whatever comes behind it. -/
def Allocates (text : List Char) : Prop :=
  ∃ front used back, text = front ++ used ++ back ∧ front.getLast?.any isWord = false ∧
    (IsRequest used ∧ back.head?.any isWord = false ∨ IsOpening used)

/-- Memory is asked for up to an edge: behind a name there is no word character, and behind a bracket
there is one. -/
def AllocatesToEdge (text : List Char) : Prop :=
  ∃ front used back, text = front ++ used ++ back ∧ front.getLast?.any isWord = false ∧
    (IsRequest used ∧ back.head?.any isWord = false ∨
      (IsOpening used ∨ IsNew emptyBuffers used) ∧ back.head?.any isWord = true)

namespace IsNew

variable {types others : List String} {used : List Char}

theorem append_iff : IsNew (types ++ others) used ↔ IsNew types used ∨ IsNew others used := by
  simp only [IsNew, isAmong, List.any_append, Bool.or_eq_true, and_or_left, exists_or]

theorem head?_any (new : IsNew types used) : used.head?.any isWord = true := by
  obtain ⟨word, gap, type, rfl, isNew, -, -⟩ := new
  have first : word.head?.any isWord = true := head?_any_of_isAmong (by decide) isNew
  cases word with
  | nil => cases first
  | cons c word => exact first

theorem getLast?_any {last : Bool} (filled : "" ∉ types)
    (alike : ∀ name ∈ types, name.toList.getLast?.any isWord = last) (new : IsNew types used) :
    used.getLast?.any isWord = last := by
  obtain ⟨word, gap, type, rfl, -, -, among⟩ := new
  rw [List.getLast?_append_of_ne_nil _ (ne_nil_of_isAmong filled among)]
  exact getLast?_any_of_isAmong alike among

end IsNew

/-- The type of a buffer of no given length begins with an opening. -/
theorem exists_opening_of_emptyBuffer {type : List Char} (among : isAmong emptyBuffers type = true) :
    ∃ opening, type = opening ++ [']'] ∧ isAmong bufferOpenings opening = true := by
  have cut : ∀ name ∈ emptyBuffers, ∃ opening ∈ bufferOpenings,
      name.toList = opening.toList ++ [']'] := by decide
  obtain ⟨name, listed, same⟩ := List.any_eq_true.mp among
  obtain ⟨opening, opens, whole⟩ := cut name listed
  have folds : folded type = folded opening.toList ++ folded [']'] := by
    rw [← beq_iff_eq.mp same, whole, folded, List.map_append]
    rfl
  obtain ⟨start, last, rfl, isOpening, isBracket⟩ := List.map_eq_append_iff.mp folds
  rw [eq_of_folded_eq (by decide) isBracket]
  exact ⟨start, rfl, List.any_eq_true.mpr ⟨opening, opens, beq_iff_eq.mpr isOpening.symm⟩⟩

theorem IsNew.exists_opening {used : List Char} (new : IsNew emptyBuffers used) :
    ∃ opening, used = opening ++ [']'] ∧ IsNew bufferOpenings opening := by
  obtain ⟨word, gap, _, rfl, isNew, isGap, among⟩ := new
  obtain ⟨type, rfl, opens⟩ := exists_opening_of_emptyBuffer among
  exact ⟨word ++ gap ++ type, (List.append_assoc _ type _).symm, word, gap, type, rfl, isNew, isGap,
    opens⟩

theorem IsRequest.head?_any {used : List Char} (request : IsRequest used) :
    used.head?.any isWord = true :=
  request.elim (head?_any_of_isAmong (by decide)) IsNew.head?_any

theorem IsRequest.getLast?_any {used : List Char} (request : IsRequest used) :
    used.getLast?.any isWord = true :=
  request.elim (getLast?_any_of_isAmong (by decide)) (IsNew.getLast?_any (by decide) (by decide))

theorem IsOpening.head?_any {used : List Char} (opening : IsOpening used) :
    used.head?.any isWord = true :=
  opening.elim (head?_any_of_isAmong (by decide)) IsNew.head?_any

theorem IsOpening.getLast?_any {used : List Char} (opening : IsOpening used) :
    used.getLast?.any isWord = false :=
  opening.elim (getLast?_any_of_isAmong (by decide)) (IsNew.getLast?_any (by decide) (by decide))

namespace Pattern

variable {place : Place} {used : List Char}

theorem describes_new (types : List String) :
    (sequence [anyCase ["new"], someBlanks, anyCase types]).Describes (IsNew types) := by
  intro place used
  have parts := (describes_anyCase ["new"]).next
    (describes_someBlanks.next (describes_anyCase types))
  refine (parts place used).trans (and_congr_right fun _ => ?_)
  constructor
  · rintro ⟨word, _, rfl, isNew, gap, type, rfl, isGap, among⟩
    exact ⟨word, gap, type, (List.append_assoc word gap type).symm, isNew, isGap, among⟩
  · rintro ⟨word, gap, type, rfl, isNew, isGap, among⟩
    exact ⟨word, gap ++ type, List.append_assoc word gap type, isNew, gap, type, rfl, isGap, among⟩

theorem describes_request : (choice (anyCase allocators) [
      sequence [anyCase ["new"], someBlanks, anyCase allocatedTypes],
      anyCase growingTypes,
      sequence [anyCase ["new"], someBlanks, anyCase bufferOpenings]]).Describes
    fun used => IsRequest used ∨ IsOpening used ∨ IsNew emptyBuffers used := by
  intro place used
  have parts := (describes_anyCase allocators).either ((describes_new allocatedTypes).either
    ((describes_anyCase growingTypes).either (describes_new bufferOpenings)))
  have types : allocatedTypes = builtTypes ++ emptyBuffers := rfl
  refine (parts place used).trans (and_congr_right fun _ => ?_)
  simp only [types, IsNew.append_iff, IsRequest, IsOpening, or_assoc, or_left_comm, or_comm]

/-- The one edge that closes a request comes behind a letter, or behind a bracket. -/
theorem takes_allocation : allocation.Takes place used ↔
    used <+: place.rest ∧ place.before.any isWord = false ∧
      (IsRequest used ∧ (place.rest.drop used.length).head?.any isWord = false ∨
        (IsOpening used ∨ IsNew emptyBuffers used) ∧
          (place.rest.drop used.length).head?.any isWord = true) := by
  have closed (request : IsRequest used) (inside : used <+: place.rest) :=
    Place.edges_iff inside request.head?_any request.getLast?_any
  have opened (shape : IsOpening used ∨ IsNew emptyBuffers used) (inside : used <+: place.rest) :=
    Place.edges_iff inside (shape.elim IsOpening.head?_any IsNew.head?_any)
      (shape.elim IsOpening.getLast?_any (IsNew.getLast?_any (by decide) (by decide)))
  have parts := takes_between_edges.trans (and_congr_right fun _ => and_congr_left fun _ =>
    describes_request place used)
  refine parts.trans ?_
  constructor
  · rintro ⟨opens, ⟨inside, request | shape⟩, closes⟩
    · obtain ⟨apart, next⟩ := (closed request inside).mp ⟨opens, closes⟩
      exact ⟨inside, apart, Or.inl ⟨request, next⟩⟩
    · obtain ⟨apart, next⟩ := (opened shape inside).mp ⟨opens, closes⟩
      exact ⟨inside, apart, Or.inr ⟨shape, next⟩⟩
  · rintro ⟨inside, apart, ⟨request, next⟩ | ⟨shape, next⟩⟩
    · obtain ⟨opens, closes⟩ := (closed request inside).mpr ⟨apart, next⟩
      exact ⟨opens, ⟨inside, Or.inl request⟩, closes⟩
    · obtain ⟨opens, closes⟩ := (opened shape inside).mpr ⟨apart, next⟩
      exact ⟨opens, ⟨inside, Or.inr shape⟩, closes⟩

end Pattern

variable {text : List Char}

theorem AllocatesToEdge.allocates (found : AllocatesToEdge text) : Allocates text := by
  obtain ⟨front, used, back, rfl, apart, ⟨request, next⟩ | ⟨opening | buffer, -⟩⟩ := found
  · exact ⟨front, used, back, rfl, apart, Or.inl ⟨request, next⟩⟩
  · exact ⟨front, used, back, rfl, apart, Or.inr opening⟩
  · obtain ⟨opening, rfl, opens⟩ := buffer.exists_opening
    exact ⟨front, opening, ']' :: back, by simp, apart, Or.inr (Or.inr opens)⟩

/-- An allocation is found in a text if and only if memory is asked for there up to an edge. So where
one is found memory is asked for, but not the other way round. -/
theorem hasAllocation_exact (text : List Char) :
    (hasAllocation text = true ↔ AllocatesToEdge text) ∧
      (hasAllocation text = true → Allocates text) := by
  have found : hasAllocation text = true ↔ AllocatesToEdge text := by
    simp only [hasAllocation, Pattern.occursIn_iff, Pattern.takes_allocation, Place.amid_rest,
      Place.amid_before, List.prefix_append, List.drop_left, true_and, AllocatesToEdge]
  exact ⟨found, fun there => (found.mp there).allocates⟩

/-- A map whose types are left to be inferred. -/
def inferredText : List Char :=
  "Map<String, Integer> m = new HashMap<>();".toList

theorem not_hasAllocation_inferredText :
    Allocates inferredText ∧ hasAllocation inferredText = false := by
  refine ⟨⟨"Map<String, Integer> m = new ".toList, "HashMap<".toList, ">();".toList, by decide,
    by decide, Or.inr (Or.inl (by decide))⟩, ?_⟩
  rw [hasAllocation, Pattern.occursIn_eq_any]
  decide +kernel

end SnippetAudit
