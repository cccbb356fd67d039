/-!
Lists without the repetitions among neighbours. Of neighbours that are the same the first is kept. In a
list in which what is the same stands together nothing is left twice, and whatever was in the list has
the same still in it.
-/

namespace SnippetAudit

variable {α : Type} {same : α → α → Bool} {items : List α}

/-- An element is left out behind one that is the same. -/
theorem eraseRepsBy_cons_cons (same : α → α → Bool) (first second : α) (later : List α) :
    (first :: second :: later).eraseRepsBy same =
      if same first second then (first :: later).eraseRepsBy same
      else first :: (second :: later).eraseRepsBy same := by
  have gathered (first : α) (later found : List α) :
      List.eraseRepsBy.loop same first later found =
        found.reverse ++ List.eraseRepsBy.loop same first later [] := by
    induction later generalizing first found with
    | nil => simp [List.eraseRepsBy.loop]
    | cons second later ih =>
      rw [List.eraseRepsBy.loop, List.eraseRepsBy.loop]
      split
      · exact ih first found
      · rw [ih second (first :: found), ih second [first]]
        simp
  rw [List.eraseRepsBy, List.eraseRepsBy, List.eraseRepsBy, List.eraseRepsBy.loop]
  cases same first second with
  | true => rfl
  | false => exact gathered second later [first]

theorem eraseRepsBy_sublist (same : α → α → Bool) (items : List α) :
    (items.eraseRepsBy same).Sublist items := by
  cases items with
  | nil => exact .slnil
  | cons first later =>
    induction later generalizing first with
    | nil => exact .refl _
    | cons second later ih =>
      rw [eraseRepsBy_cons_cons]
      split
      · exact (ih first).trans ((List.sublist_cons_self second later).cons_cons first)
      · exact (ih second).cons_cons first

/-- What is left out is the same as something that stays. -/
theorem exists_mem_eraseRepsBy (refl : ∀ a, same a a = true)
    (trans : ∀ a b c, same a b = true → same b c = true → same a c = true) {item : α}
    (member : item ∈ items) : ∃ kept ∈ items.eraseRepsBy same, same kept item = true := by
  cases items with
  | nil => exact absurd member List.not_mem_nil
  | cons first later =>
    induction later generalizing first item with
    | nil => exact ⟨item, member, refl item⟩
    | cons second later ih =>
      rw [eraseRepsBy_cons_cons]
      rcases List.mem_cons.mp member with rfl | behind
      · split
        · exact ih item List.mem_cons_self
        · exact ⟨item, List.mem_cons_self, refl item⟩
      · split
        · rename_i alike
          rcases List.mem_cons.mp behind with rfl | further
          · obtain ⟨kept, stays, here⟩ := ih first List.mem_cons_self
            exact ⟨kept, stays, trans kept first item here alike⟩
          · exact ih first (List.mem_cons_of_mem first further)
        · obtain ⟨kept, stays, alike⟩ := ih second behind
          exact ⟨kept, List.mem_cons_of_mem first stays, alike⟩

/-- Where each element comes before the later ones or is the same, those that stay all come before the
later ones. -/
theorem pairwise_eraseRepsBy {before : α → α → Prop}
    (chain : ∀ a b c, before a b → before b c ∨ same b c = true → before a c)
    (ordered : items.Pairwise fun a b => before a b ∨ same a b = true) :
    (items.eraseRepsBy same).Pairwise before := by
  cases items with
  | nil => exact .nil
  | cons first later =>
    induction later generalizing first with
    | nil => exact List.pairwise_singleton _ _
    | cons second later ih =>
      rw [eraseRepsBy_cons_cons]
      split
      · exact ih first (ordered.sublist ((List.sublist_cons_self second later).cons_cons first))
      · rename_i different
        obtain ⟨ahead, behind⟩ := List.pairwise_cons.mp ordered
        have next : before first second := (ahead second List.mem_cons_self).resolve_right different
        refine List.pairwise_cons.mpr ⟨fun other member => ?_, ih second behind⟩
        rcases List.mem_cons.mp ((eraseRepsBy_sublist same _).subset member) with rfl | further
        · exact next
        · exact chain first second other next ((List.pairwise_cons.mp behind).1 other further)

end SnippetAudit
