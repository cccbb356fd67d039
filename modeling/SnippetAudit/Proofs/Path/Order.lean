import Mathlib.Data.List.Nodup
import SnippetAudit.Path

/-!
The order of paths. Paths are compared component by component, and two of which neither comes before
the other are the same path, however they are spelt. So what stands in this order is settled by which
paths there are.
-/

namespace SnippetAudit.Path

/-- A component comes before another if its kind does, or if both are names and its characters do. -/
instance : LT Component :=
  ⟨fun a b => a.rank.1 < b.rank.1 ∨ a.rank.1 = b.rank.1 ∧ a.rank.2 < b.rank.2⟩

/-- A path comes before another if at the first difference its component does, or if it ends there. -/
instance : LT Path :=
  ⟨fun a b => a.components < b.components⟩

namespace Component

variable {a b c : Component}

theorem lt_iff : a < b ↔ a.rank.1 < b.rank.1 ∨ a.rank.1 = b.rank.1 ∧ a.rank.2 < b.rank.2 :=
  Iff.rfl

theorem rank_inj (same : a.rank = b.rank) : a = b := by
  cases a <;> cases b <;> simp_all [rank]

theorem le_iff : a.le b = true ↔ a = b ∨ a < b := by
  have names : a.rank.2 ≤ b.rank.2 ↔ a.rank.2 = b.rank.2 ∨ a.rank.2 < b.rank.2 := by
    constructor
    · intro below
      by_cases strict : a.rank.2 < b.rank.2
      · exact Or.inr strict
      · exact Or.inl (String.le_antisymm below (String.not_lt.mp strict))
    · rintro (same | strict)
      · exact same ▸ String.le_refl _
      · exact String.not_lt.mp fun back => String.lt_irrefl _ (String.lt_trans strict back)
  rw [le, Bool.or_eq_true, Bool.and_eq_true, decide_eq_true_eq, decide_eq_true_eq, beq_iff_eq, names,
    lt_iff]
  constructor
  · rintro (kind | ⟨kind, same | strict⟩)
    · exact Or.inr (Or.inl kind)
    · exact Or.inl (rank_inj (Prod.ext kind same))
    · exact Or.inr (Or.inr ⟨kind, strict⟩)
  · rintro (rfl | kind | strict)
    · exact Or.inr ⟨rfl, Or.inl rfl⟩
    · exact Or.inl kind
    · exact Or.inr ⟨strict.1, Or.inr strict.2⟩

theorem lt_irrefl (a : Component) : ¬a < a := by
  rintro (kind | ⟨-, name⟩)
  · exact Nat.lt_irrefl _ kind
  · exact String.lt_irrefl _ name

theorem lt_trans (first : a < b) (second : b < c) : a < c := by
  rcases first with kind | ⟨kind, name⟩
  · rcases second with further | ⟨same, -⟩
    · exact Or.inl (Nat.lt_trans kind further)
    · exact Or.inl (same ▸ kind)
  · rcases second with further | ⟨same, further⟩
    · exact Or.inl (kind ▸ further)
    · exact Or.inr ⟨kind.trans same, String.lt_trans name further⟩

theorem lt_of_ne_of_not_lt (different : a ≠ b) (notBefore : ¬a < b) : b < a := by
  rw [lt_iff, not_or, not_and, Nat.not_lt] at notBefore
  obtain ⟨kind, name⟩ := notBefore
  rcases Nat.lt_or_eq_of_le kind with further | same
  · exact Or.inl further
  · refine Or.inr ⟨same, ?_⟩
    have below := String.not_lt.mp (name same.symm)
    by_cases strict : b.rank.2 < a.rank.2
    · exact strict
    · exact absurd (rank_inj (Prod.ext same.symm
        (String.le_antisymm (String.not_lt.mp strict) below))) different

instance : Std.Irrefl (α := Component) (· < ·) := ⟨lt_irrefl⟩

instance : Trans (α := Component) (· < ·) (· < ·) (· < ·) := ⟨lt_trans⟩

end Component

theorem componentsLe_iff {as bs : List Component} :
    componentsLe as bs = true ↔ as = bs ∨ as < bs := by
  induction as generalizing bs with
  | nil =>
    cases bs with
    | nil => exact iff_of_true rfl (Or.inl rfl)
    | cons b bs => exact iff_of_true rfl (Or.inr .nil)
  | cons a as ih =>
    cases bs with
    | nil => exact iff_of_false Bool.false_ne_true (by simp)
    | cons b bs =>
      rw [componentsLe, List.cons_lt_cons_iff, List.cons.injEq]
      split
      · rename_i same
        rw [ih]
        simp only [same, true_and, Component.lt_irrefl, false_or]
      · rename_i different
        rw [Component.le_iff]
        simp only [different, false_and, false_or, or_false]

theorem componentsLe_total (as bs : List Component) :
    componentsLe as bs = true ∨ componentsLe bs as = true := by
  induction as generalizing bs with
  | nil => exact Or.inl rfl
  | cons a as ih =>
    cases bs with
    | nil => exact Or.inr rfl
    | cons b bs =>
      rw [componentsLe, componentsLe]
      by_cases same : a = b
      · rw [if_pos same, if_pos same.symm]
        exact ih bs
      · rw [if_neg same, if_neg (Ne.symm same), Component.le_iff, Component.le_iff]
        by_cases before : a < b
        · exact Or.inl (Or.inr before)
        · exact Or.inr (Or.inr (Component.lt_of_ne_of_not_lt same before))

variable {a b c : Path}

theorem lt_def : a < b ↔ a.components < b.components :=
  Iff.rfl

theorem same_iff : a.same b = true ↔ a.components = b.components := by
  rw [same, beq_iff_eq]

theorem same_trans (first : a.same b = true) (second : b.same c = true) : a.same c = true :=
  same_iff.mpr ((same_iff.mp first).trans (same_iff.mp second))

theorem le_iff : a.le b = true ↔ a < b ∨ a.same b = true := by
  rw [le, componentsLe_iff, same_iff, lt_def, or_comm]

theorem le_total (a b : Path) : (a.le b || b.le a) = true := by
  rw [Bool.or_eq_true]
  exact componentsLe_total a.components b.components

theorem lt_trans (first : a < b) (second : b < c) : a < c :=
  List.lt_trans first second

theorem lt_of_lt_of_le (first : a < b) (second : b < c ∨ b.same c = true) : a < c := by
  rcases second with further | alike
  · exact lt_trans first further
  · rw [lt_def, ← same_iff.mp alike]
    exact first

theorem le_trans (first : a.le b = true) (second : b.le c = true) : a.le c = true := by
  rw [le_iff] at first second ⊢
  rcases first with before | alike
  · exact Or.inl (lt_of_lt_of_le before second)
  · refine second.imp (fun before => ?_) (same_trans alike)
    rw [lt_def, same_iff.mp alike]
    exact before

/-- Paths in strict order are settled by which paths there are, whatever their spellings. -/
theorem map_components_eq {paths others : List Path} (ordered : paths.Pairwise (· < ·))
    (othersOrdered : others.Pairwise (· < ·))
    (sub : ∀ a ∈ paths, ∃ b ∈ others, b.same a = true)
    (super : ∀ b ∈ others, ∃ a ∈ paths, a.same b = true) :
    paths.map components = others.map components := by
  have strict {paths : List Path} (ordered : paths.Pairwise (· < ·)) :
      (paths.map components).Pairwise (· < ·) :=
    List.pairwise_map.mpr ordered
  have within {paths others : List Path} (sub : ∀ a ∈ paths, ∃ b ∈ others, b.same a = true)
      {found : List Component} (member : found ∈ paths.map components) :
      found ∈ others.map components := by
    obtain ⟨a, listed, rfl⟩ := List.mem_map.mp member
    obtain ⟨b, otherListed, alike⟩ := sub a listed
    exact List.mem_map.mpr ⟨b, otherListed, same_iff.mp alike⟩
  refine List.Perm.eq_of_pairwise (fun found other _ _ before back => ?_) (strict ordered)
    (strict othersOrdered) ((List.perm_ext_iff_of_nodup (strict ordered).nodup
      (strict othersOrdered).nodup).mpr fun _ => ⟨within sub, within super⟩)
  exact absurd (List.lt_trans before back) (List.lt_irrefl found)

end SnippetAudit.Path
