import Mathlib.Data.List.Basic
import SnippetAudit.Detector
import SnippetAudit.Proofs.Pattern.Walk
import SnippetAudit.Proofs.Text.Trim

/-!
Groups in brackets and in braces. A group reaches to the first mark that closes its kind, whatever
marks of the other kind stand in it, and a mark that is never closed opens none. So the search counts
what a single pass along the text counts that jumps behind each group it meets.
-/

namespace SnippetAudit

open Text

/-- The mark that closes a group, for a character that opens one. -/
def closer? (c : Char) : Option Char :=
  if c = '[' then some ']' else if c = '{' then some '}' else none

/-- The groups that a pass along a text counts. At a mark that opens a group, with one that closes it
somewhere behind, it counts a group and goes on behind the first such; else it goes on at the next
character. -/
def groupsAlong : List Char → Nat
  | [] => 0
  | c :: text =>
    match closer? c with
    | some closer =>
      if closer ∈ text then groupsAlong (text.drop (text.idxOf closer + 1)) + 1
      else groupsAlong text
    | none => groupsAlong text
termination_by text => text.length
decreasing_by
  all_goals simp only [List.length_drop, List.length_cons]
  all_goals omega

theorem closer?_eq_some_iff {opener closer : Char} :
    closer? opener = some closer ↔
      opener = '[' ∧ closer = ']' ∨ opener = '{' ∧ closer = '}' := by
  rw [closer?]
  split
  · rename_i bracket
    simp [bracket, eq_comm]
  · rename_i other
    simp [other, eq_comm]

/-- The index of a character is the number of those before its first occurrence. -/
theorem Text.idxOf_of_first {front back : List Char} {c : Char} (first : c ∉ front) :
    (front ++ c :: back).idxOf c = front.length := by
  rw [List.idxOf_append_of_notMem first, List.idxOf_cons_self, Nat.add_zero]

/-- A group: a mark that opens it, the first one that closes it, and what stands between the two. -/
def IsGroup (used : List Char) : Prop :=
  ∃ opener closer inner, closer? opener = some closer ∧ closer ∉ inner ∧
    used = opener :: (inner ++ [closer])

namespace Pattern

theorem describes_literalGroup : literalGroup.Describes IsGroup := by
  intro place used
  have group (opener closer : Char) := (describes_char opener).next
    ((describes_many (· != closer)).next (describes_char closer))
  have without {inner : List Char} {closer : Char}
      (plain : ∀ c ∈ inner, (c != closer) = true) : closer ∉ inner :=
    fun member => bne_iff_ne.mp (plain closer member) rfl
  simp only [literalGroup, sequence]
  rw [(group '[' ']').either (group '{' '}') place used]
  refine and_congr_right fun _ => ?_
  constructor
  · rintro (⟨_, _, rfl, rfl, inner, _, rfl, plain, rfl⟩ | ⟨_, _, rfl, rfl, inner, _, rfl, plain, rfl⟩)
    · exact ⟨'[', ']', inner, rfl, without plain, rfl⟩
    · exact ⟨'{', '}', inner, rfl, without plain, rfl⟩
  · rintro ⟨opener, closer, inner, closes, plain, rfl⟩
    rcases closer?_eq_some_iff.mp closes with ⟨rfl, rfl⟩ | ⟨rfl, rfl⟩
    · exact Or.inl ⟨['['], _, rfl, rfl, inner, _, rfl, bne_of_not_mem plain, rfl⟩
    · exact Or.inr ⟨['{'], _, rfl, rfl, inner, _, rfl, bne_of_not_mem plain, rfl⟩

/-- From a mark that opens a group the search takes the text up to the first mark that closes it. -/
theorem head?_lengths_literalGroup (afterWord : Bool) {opener closer : Char} {text : List Char}
    (closes : closer? opener = some closer) (closed : closer ∈ text) :
    (literalGroup.lengths afterWord (opener :: text)).head? = some (text.idxOf closer + 2) := by
  obtain ⟨inner, more, rfl, plain⟩ := List.eq_append_cons_of_mem closed
  have inside : opener :: (inner ++ [closer]) <+: opener :: (inner ++ closer :: more) :=
    ⟨more, by simp⟩
  rw [describes_literalGroup.head?_lengths afterWord inside ⟨_, _, inner, closes, plain, rfl⟩]
  · rw [idxOf_of_first plain, List.length_cons, List.length_append, List.length_singleton]
  · rintro _ ⟨behind, same⟩ ⟨opener', closer', inner', closes', plain', rfl⟩
    rw [List.cons_append] at same
    obtain ⟨rfl, rest⟩ := List.cons.inj same
    obtain rfl : closer = closer' := Option.some.inj (closes.symm.trans closes')
    rw [List.append_assoc, List.singleton_append] at rest
    obtain ⟨rfl, -, -⟩ := append_cons_inj (bne_of_not_mem plain') (bne_self_eq_false closer)
      (bne_of_not_mem plain) (bne_self_eq_false closer) rest
    rfl

/-- A character that opens no group, or one that is never closed, starts no occurrence. -/
theorem lengths_literalGroup_eq_nil (afterWord : Bool) {c : Char} {text : List Char}
    (open' : ∀ closer, closer? c = some closer → closer ∉ text) :
    literalGroup.lengths afterWord (c :: text) = [] := by
  refine describes_literalGroup.lengths_eq_nil afterWord ?_
  rintro _ ⟨behind, same⟩ ⟨opener, closer, inner, closes, -, rfl⟩
  obtain ⟨rfl, rest⟩ := List.cons.inj same
  refine open' closer closes ?_
  rw [← rest]
  simp

/-- The search meets as many groups as the pass along what it does not skip. -/
theorem length_startsFrom_literalGroup (index skip : Nat) (afterWord : Bool) (text : List Char) :
    (literalGroup.startsFrom index afterWord skip text).length = groupsAlong (text.drop skip) := by
  induction text generalizing index skip afterWord with
  | nil =>
    have none : literalGroup.lengths afterWord [] = [] := by
      refine describes_literalGroup.lengths_eq_nil afterWord ?_
      rintro _ inside ⟨opener, closer, inner, -, -, rfl⟩
      exact absurd (List.prefix_nil.mp inside) (List.cons_ne_nil _ _)
    rw [startsFrom, none, List.drop_nil, groupsAlong]
    simp
  | cons c text ih =>
    cases skip with
    | succ skip => rw [startsFrom, if_neg (Nat.succ_ne_zero skip), ih, Nat.add_sub_cancel,
        List.drop_succ_cons]
    | zero =>
      rw [startsFrom, if_pos rfl, List.drop_zero, groupsAlong]
      cases closes : closer? c with
      | none =>
        rw [lengths_literalGroup_eq_nil afterWord (by simp [closes])]
        exact ih _ _ _
      | some closer =>
        dsimp only
        by_cases closed : closer ∈ text
        · rw [head?_lengths_literalGroup afterWord closes closed, if_pos closed]
          exact congrArg (· + 1) (ih _ _ _)
        · rw [lengths_literalGroup_eq_nil afterWord (by simpa [closes] using closed), if_neg closed]
          exact ih _ _ _

end Pattern

/-- Each group ends at a closing mark of its own. -/
theorem groupsAlong_le (text : List Char) :
    groupsAlong text ≤ text.count ']' + text.count '}' := by
  fun_induction groupsAlong text with
  | case1 => exact Nat.zero_le _
  | case2 c text closer closes closed ih =>
    obtain ⟨inner, more, rfl, plain⟩ := List.eq_append_cons_of_mem closed
    have behind : (inner ++ closer :: more).drop (inner.length + 1) = more := by
      rw [← List.drop_drop, List.drop_left, List.drop_one, List.tail_cons]
    rw [idxOf_of_first plain, behind] at ih ⊢
    rcases closer?_eq_some_iff.mp closes with ⟨-, rfl⟩ | ⟨-, rfl⟩
    · simp only [List.count_cons, List.count_append, BEq.rfl, if_true]
      omega
    · simp only [List.count_cons, List.count_append, BEq.rfl, if_true]
      omega
  | case3 c text closer closes open' ih =>
    exact Nat.le_trans ih (Nat.add_le_add List.count_le_count_cons List.count_le_count_cons)
  | case4 c text none ih =>
    exact Nat.le_trans ih (Nat.add_le_add List.count_le_count_cons List.count_le_count_cons)

/-- The groups counted in a text are those of a single pass along it, and there are no more of them
than marks that close one. -/
theorem groupCount_eq_groupsAlong (text : List Char) :
    groupCount text = groupsAlong text ∧ groupCount text ≤ text.count ']' + text.count '}' := by
  have same : groupCount text = groupsAlong text := by
    rw [groupCount, Pattern.count_eq_length_starts, Pattern.starts,
      Pattern.length_startsFrom_literalGroup, List.drop_zero]
  exact ⟨same, same ▸ groupsAlong_le text⟩

example : groupsAlong "[{]} {[}]".toList = 2 := by cbv

end SnippetAudit
