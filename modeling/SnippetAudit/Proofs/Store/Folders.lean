import SnippetAudit.Proofs.Store.Disk
import SnippetAudit.Store.Folders

/-!
What making folders leaves as it was: every file, and every folder that is already there.
-/

namespace SnippetAudit

variable {α β : Type} {s between later : Surroundings}

/-- Surroundings in which nothing but folders has been made since. -/
structure Furnished (s later : Surroundings) : Prop where
  folder : later.folder = s.folder
  now : later.now = s.now
  room : later.disk.room = s.disk.room
  kept : ∀ location item, s.disk.get? location = some item → later.disk.get? location = some item
  made : ∀ location bytes, later.disk.get? location = some (.file bytes) →
    s.disk.get? location = some (.file bytes)

namespace Furnished

theorem refl (s : Surroundings) : Furnished s s :=
  ⟨rfl, rfl, rfl, fun _ _ here => here, fun _ _ here => here⟩

theorem trans (first : Furnished s between) (second : Furnished between later) :
    Furnished s later where
  folder := second.folder.trans first.folder
  now := second.now.trans first.now
  room := second.room.trans first.room
  kept location item here := second.kept location item (first.kept location item here)
  made location bytes here := first.made location bytes (second.made location bytes here)

theorem contents (furnished : Furnished s later) (location : Location) :
    later.disk.contents location = s.disk.contents location := by
  unfold Disk.contents
  cases here : s.disk.get? location with
  | some item => rw [furnished.kept location item here]
  | none =>
    cases there : later.disk.get? location with
    | none => rfl
    | some item =>
      cases item with
      | folder => rfl
      | file bytes =>
        have before := furnished.made location bytes there
        rw [here] at before
        cases before

end Furnished

def Furnishes (act : StateM Surroundings α) : Prop :=
  ∀ s, Furnished s (act.run s).2

namespace Furnishes

theorem pure (value : α) : Furnishes (Pure.pure value : StateM Surroundings α) :=
  Furnished.refl

theorem bind {act : StateM Surroundings α} {next : α → StateM Surroundings β}
    (first : Furnishes act) (second : ∀ value, Furnishes (next value)) : Furnishes (act >>= next) :=
  fun s => (first s).trans (second _ _)

theorem leadsToFolder (path : Path) :
    Furnishes (Host.leadsToFolder path : StateM Surroundings Bool) :=
  Furnished.refl

theorem run_makeFolder (path : Path) (s : Surroundings) :
    (Host.makeFolder path : StateM Surroundings (Except Fault Unit)).run s =
      match s.disk.makeFolder s.folder path with
      | .error fault => (.error fault, s)
      | .ok disk => (.ok (), { s with disk }) := by
  rfl

theorem makeFolder (path : Path) :
    Furnishes (Host.makeFolder path : StateM Surroundings (Except Fault Unit)) := by
  intro s
  rw [run_makeFolder]
  split
  · exact .refl s
  · rename_i disk made
    obtain ⟨location, -, free, rfl⟩ := Disk.exists_of_makeFolder made
    have named : location ≠ [] := by
      rintro rfl
      cases free
    refine ⟨rfl, rfl, rfl, ?_, ?_⟩
    · intro other item here
      have different : other ≠ location := by
        rintro rfl
        rw [free] at here
        cases here
      exact (Disk.get?_put_of_ne different).trans here
    · intro other bytes there
      by_cases same : other = location
      · rw [same, Disk.get?_put_self named] at there
        cases there
      · exact (Disk.get?_put_of_ne same).symm.trans there

/-- A folder that is already there is as good as one made. -/
theorem settle (path : Path) (fault : Fault) :
    Furnishes (do return if ← Host.leadsToFolder path then .ok () else .error fault :
      StateM Surroundings (Except Fault Unit)) :=
  (leadsToFolder path).bind fun _ => pure _

theorem makeFirst (paths : List Path) :
    Furnishes (Host.makeFirst paths : StateM Surroundings (Except Fault Unit)) := by
  induction paths with
  | nil => exact pure _
  | cons path above ih =>
    rw [Host.makeFirst]
    split
    · exact pure _
    · refine (makeFolder path).bind fun made => ?_
      split
      · exact pure _
      · refine ih.bind fun first => ?_
        split
        · exact pure _
        · refine (makeFolder path).bind fun again => ?_
          split
          · exact pure _
          · exact settle path _
      · exact settle path _

end Furnishes

end SnippetAudit
