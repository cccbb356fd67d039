import SnippetAudit.Data.Record

/-!
Fields of records: what is read of a table that gives each of them once.
-/

namespace SnippetAudit.Data

/-- The fields of a table in which no name of a field stands twice. -/
theorem fieldsByName?_of_once {names : List String} {members : List (String × Data)}
    (once : names.any (fun name => 1 < members.countP (·.1 == name)) = false) :
    fieldsByName? names members = some (names.map fun name => members.lookup name) := by
  rw [fieldsByName?, once]
  rfl

theorem fields?_of_once {names : List String} {surplus : Surplus} {members : List (String × Data)}
    (once : names.any (fun name => 1 < members.countP (·.1 == name)) = false) :
    fields? names surplus (.table members) = some (names.map fun name => members.lookup name) :=
  fieldsByName?_of_once once

theorem needed_some {α : Type} (read : Data → Option α) (value : Data) :
    needed read (some value) = read value := by
  rw [needed, Option.bind_some]

theorem nat?_natCast {bound n : Nat} (small : n < bound) :
    nat? bound (.whole (n : Int)) = some n := by
  have fits : 0 ≤ (n : Int) ∧ (n : Int) < bound := by omega
  simp only [nat?, if_pos fits, Int.toNat_natCast]

theorem nat32?_natCast {n : Nat} (small : n < Nat.pow 2 32) : nat32? (.whole (n : Int)) = some n :=
  nat?_natCast small

theorem nat64?_natCast {n : Nat} (small : n < Nat.pow 2 64) : nat64? (.whole (n : Int)) = some n :=
  nat?_natCast small

/-- A list of records is read back if each of its records is. -/
theorem mapM_map_eq_some {α : Type} {write : α → Data} {read : Data → Option α} {items : List α}
    (each : ∀ item ∈ items, read (write item) = some item) :
    (items.map write).mapM read = some items := by
  induction items with
  | nil => rfl
  | cons item items ih =>
    rw [List.map_cons, List.mapM_cons, each item List.mem_cons_self,
      ih fun other member => each other (.tail _ member)]
    rfl

end SnippetAudit.Data
