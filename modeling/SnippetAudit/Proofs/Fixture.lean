import SnippetAudit.Proofs.Classify
import SnippetAudit.Proofs.Text.Lines

/-!
Fixtures looked up. More text around a snippet keeps every required text in it, so another fixture can
only take over from the front of the table; a snippet loses its fixture for none or a later one only
where the text added has something in it that the fixture forbids.
-/

namespace SnippetAudit

open Text

namespace Fixture

variable {fixture other : Fixture} {text code : List Char}

theorem accepts_iff : fixture.accepts text = true ↔
    (∀ needle ∈ fixture.required, needle.toList <:+: text) ∧
      ∀ needle ∈ fixture.forbidden, ¬needle.toList <:+: text := by
  simp only [accepts, Bool.and_eq_true, Bool.not_eq_true', List.all_eq_true, List.any_eq_false,
    contains_iff]

/-- A fixture of a part of a text accepts the whole, unless that has something in it which the fixture
forbids. -/
theorem accepts_of_part (part : code <:+: text) (accepted : fixture.accepts code = true)
    (free : ∀ needle ∈ fixture.forbidden, ¬needle.toList <:+: text) :
    fixture.accepts text = true :=
  accepts_iff.mpr ⟨fun needle listed => ((accepts_iff.mp accepted).1 needle listed).trans part, free⟩

/-- Two fixtures exclude each other where one forbids a part of what the other requires. -/
theorem not_accepts_both {needle fragment : String} (forbids : needle ∈ fixture.forbidden)
    (requires : fragment ∈ other.required) (part : needle.toList <:+: fragment.toList) :
    ¬(fixture.accepts text = true ∧ other.accepts text = true) := by
  rintro ⟨accepted, otherAccepted⟩
  have there := (accepts_iff.mp otherAccepted).1 fragment requires
  exact (accepts_iff.mp accepted).2 needle forbids (part.trans there)

theorem exists_find?_le {items : List α} {passes : α → Bool} {index : Nat} {item : α}
    (there : items[index]? = some item) (good : passes item = true) :
    ∃ earlier ≤ index, ∃ found, items[earlier]? = some found ∧ items.find? passes = some found := by
  induction items generalizing index with
  | nil => cases there
  | cons first items ih =>
    cases passed : passes first with
    | true => exact ⟨0, Nat.zero_le _, first, rfl, List.find?_cons_of_pos passed⟩
    | false =>
      cases index with
      | zero =>
        cases there
        rw [passed] at good
        cases good
      | succ index =>
        obtain ⟨earlier, within, found, atEarlier, sought⟩ := ih there
        refine ⟨earlier + 1, Nat.succ_le_succ within, found, atEarlier, ?_⟩
        rwa [List.find?_cons_of_neg (by simp [passed])]

theorem accepts_of_find? (found : find? text = some fixture) : fixture.accepts text = true := by
  have sought : table.find? (fun fixture => fixture.accepts text) = some fixture := found
  have accepted := List.find?_some sought
  exact accepted

/-- The recursive search tree is the only fixture that forbids anything. -/
theorem forbidden_eq : ∀ fixture ∈ table, fixture.forbidden = [] ∨
    fixture.name = "cpp-obst-recursive" ∧ fixture.forbidden = ["vector<vector<int>> &memo"] := by
  decide

theorem not_recursive_and_memoized : ∀ recursive ∈ table, ∀ memoized ∈ table,
    recursive.name = "cpp-obst-recursive" → memoized.name = "cpp-obst-memoized" →
      ¬(recursive.accepts text = true ∧ memoized.accepts text = true) := by
  have clash : ∀ recursive ∈ table, ∀ memoized ∈ table, recursive.name = "cpp-obst-recursive" →
      memoized.name = "cpp-obst-memoized" → ∃ needle ∈ recursive.forbidden,
        ∃ fragment ∈ memoized.required, contains fragment.toList needle.toList = true := by
    decide +kernel
  intro recursive listed memoized otherListed isRecursive isMemoized
  obtain ⟨needle, forbids, fragment, requires, part⟩ :=
    clash recursive listed memoized otherListed isRecursive isMemoized
  exact not_accepts_both forbids requires (contains_iff.mp part)

theorem exists_find?_of_part {index : Nat} (there : table[index]? = some fixture)
    (found : find? code = some fixture) (part : code <:+: text) :
    (∃ earlier ≤ index, ∃ first, table[earlier]? = some first ∧ find? text = some first) ∨
      fixture.name = "cpp-obst-recursive" ∧ "vector<vector<int>> &memo".toList <:+: text := by
  have accepted := accepts_of_find? found
  by_cases free : ∀ needle ∈ fixture.forbidden, ¬needle.toList <:+: text
  · exact Or.inl (exists_find?_le there (accepts_of_part part accepted free))
  · rcases forbidden_eq fixture (List.mem_of_getElem? there) with none | ⟨isRecursive, memo⟩
    · rw [none] at free
      exact absurd (fun needle member => absurd member List.not_mem_nil) free
    · rw [memo] at free
      simp only [List.mem_singleton, forall_eq, Classical.not_not] at free
      exact Or.inr ⟨isRecursive, free⟩

/-- The recursive and the memoized search tree never accept the same text. A snippet with a fixture,
put into any text, has a fixture there that is no later in the table, unless its own is the recursive
search tree and the text has a memo parameter in it. And the fixture found labels time and space,
whether or not anything is recursive. -/
theorem find?_stable :
    (∀ text, ∀ recursive ∈ table, ∀ memoized ∈ table, recursive.name = "cpp-obst-recursive" →
      memoized.name = "cpp-obst-memoized" →
        ¬(recursive.accepts text = true ∧ memoized.accepts text = true)) ∧
    (∀ (before code behind : List Char) (index : Nat) (fixture : Fixture),
      table[index]? = some fixture → find? code = some fixture →
        (∃ earlier ≤ index, ∃ first, table[earlier]? = some first ∧
          find? (before ++ code ++ behind) = some first) ∨
        fixture.name = "cpp-obst-recursive" ∧
          "vector<vector<int>> &memo".toList <:+: before ++ code ++ behind) ∧
    ∀ text fixture, find? text = some fixture → ∀ recursive,
      (Classify.time text recursive).1 = fixture.time ∧
        (Classify.space text recursive).1 = fixture.space := by
  refine ⟨fun text => not_recursive_and_memoized, ?_, ?_⟩
  · intro before code behind index fixture there found
    exact exists_find?_of_part there found ⟨before, behind, rfl⟩
  · intro text fixture found recursive
    obtain ⟨time, space⟩ := Classify.of_find? found recursive
    rw [time, space]
    exact ⟨rfl, rfl⟩

/-- The recursive search tree: no more than what its fixture requires. -/
def plainTree : List Char :=
  "int optCost(vector<int> &freq, int i, int j)".toList ++ plainRecursion.toList ++
    frequencySum.toList

/-- It keeps the first fixture between other lines. -/
theorem find?_plainTree : ∃ fixture, table[0]? = some fixture ∧ find? plainTree = some fixture ∧
    find? ("// trees\n".toList ++ plainTree ++ "\n".toList) = some fixture := by
  obtain ⟨fixture, there⟩ : ∃ fixture, table[0]? = some fixture := ⟨_, rfl⟩
  have first {text : List Char} (atFirst : ∃ earlier ≤ 0, ∃ first, table[earlier]? = some first ∧
      find? text = some first) : find? text = some fixture := by
    obtain ⟨_, le, found, atStart, same⟩ := atFirst
    rw [Nat.le_zero.mp le, there] at atStart
    rw [same, atStart]
  have free : ¬"vector<vector<int>> &memo".toList <:+:
      "// trees\n".toList ++ plainTree ++ "\n".toList := by
    rw [← contains_iff]
    decide +kernel
  have accepted : fixture.accepts plainTree = true := by
    cases there
    refine accepts_iff.mpr ⟨fun needle listed => ?_, fun needle listed => ?_⟩
    · simp only [List.mem_cons, List.not_mem_nil, or_false] at listed
      rcases listed with rfl | rfl | rfl
      · exact ⟨[], plainRecursion.toList ++ frequencySum.toList,
          (List.append_assoc _ _ _).symm⟩
      · exact ⟨"int optCost(vector<int> &freq, int i, int j)".toList, frequencySum.toList, rfl⟩
      · exact ⟨_, [], List.append_nil _⟩
    · rw [List.mem_singleton.mp listed]
      exact fun inside => free (inside.trans ⟨_, _, rfl⟩)
  have found := first (exists_find?_le there accepted)
  refine ⟨fixture, there, found, ?_⟩
  rcases find?_stable.2.1 _ _ _ 0 fixture there found with kept | ⟨-, memo⟩
  · exact first kept
  · exact absurd memo free

end Fixture

end SnippetAudit
