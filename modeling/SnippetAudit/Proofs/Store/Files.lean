import SnippetAudit.Proofs.Command.Attempt
import SnippetAudit.Proofs.Store.Folders

/-!
What commands leave as it was: every folder, and every file but those that they write to.
-/

namespace SnippetAudit

namespace Disk

variable {disk : Disk} {folder location other : Location} {path : Path} {bytes : ByteArray}

/-- The bytes of the file at a place, if there is one. -/
def file? (disk : Disk) (location : Location) : Option ByteArray :=
  match disk.get? location with
  | some (.file bytes) => some bytes
  | _ => none

theorem file?_eq_some_iff : disk.file? location = some bytes ↔
    disk.get? location = some (.file bytes) := by
  rw [file?]
  split <;> simp_all

theorem contents_eq : disk.contents location = (disk.file? location).getD .empty := by
  rw [contents, file?]
  split <;> simp_all

end Disk

variable {α β : Type} {paths more : List Path} {s between later : Surroundings}

/-- The bytes of the file that a path names, if there is one. -/
def Surroundings.file? (s : Surroundings) (path : Path) : Option ByteArray :=
  s.disk.file? (Disk.aim s.folder path)

/-- Surroundings in which no folder is gone since, and no file has changed but those that some paths
name. -/
structure Changed (paths : List Path) (s later : Surroundings) : Prop where
  folder : later.folder = s.folder
  now : later.now = s.now
  room : s.disk.room = none → later.disk.room = none
  folders : s.disk.KeepsFolders later.disk
  files : ∀ location, (∀ path ∈ paths, Disk.aim s.folder path ≠ location) →
    later.disk.file? location = s.disk.file? location

namespace Changed

theorem refl (paths : List Path) (s : Surroundings) : Changed paths s s :=
  ⟨rfl, rfl, id, fun _ => id, fun _ _ => rfl⟩

theorem trans (first : Changed paths s between) (second : Changed paths between later) :
    Changed paths s later where
  folder := second.folder.trans first.folder
  now := second.now.trans first.now
  room endless := second.room (first.room endless)
  folders location here := second.folders location (first.folders location here)
  files location apart :=
    (second.files location (by rwa [first.folder])).trans (first.files location apart)

theorem mono (changed : Changed paths s later) (within : paths ⊆ more) : Changed more s later :=
  { changed with files := fun location apart =>
      changed.files location fun path member => apart path (within member) }

theorem notices (paths : List Path) (s : Surroundings) (notices : Array Notice) :
    Changed paths s { s with notices } :=
  ⟨rfl, rfl, id, fun _ => id, fun _ _ => rfl⟩

/-- Making folders changes no file. -/
theorem of_furnished (furnished : Furnished s later) (paths : List Path) :
    Changed paths s later where
  folder := furnished.folder
  now := furnished.now
  room endless := furnished.room.trans endless
  folders location here := furnished.kept location .folder here
  files location _ := by
    refine Option.ext fun bytes => ?_
    rw [Disk.file?_eq_some_iff, Disk.file?_eq_some_iff]
    exact ⟨furnished.made location bytes, furnished.kept location (.file bytes)⟩

/-- A file that is put where a path leads changes nothing but what the path names. -/
theorem of_put {path : Path} {location : Location} {bytes : ByteArray} {room : Option Nat}
    (opens : s.disk.Opens s.folder path location) (endless : s.disk.room = none → room = none) :
    Changed [path] s { s with disk := { s.disk.put location (.file bytes) with room } } where
  folder := rfl
  now := rfl
  room := endless
  folders := Disk.keepsFolders_put opens.free
  files other apart := by
    have different : other ≠ location := by
      rw [opens.eq_aim]
      exact (apart path (List.mem_singleton_self path)).symm
    have same : Disk.get? { s.disk.put location (.file bytes) with room } other =
        s.disk.get? other := Disk.get?_put_of_ne different
    rw [Disk.file?, Disk.file?, same]

/-- A file that none of the paths names is as it was. -/
theorem file? (changed : Changed paths s later) {other : Path}
    (apart : ∀ path ∈ paths, Disk.aim s.folder path ≠ Disk.aim s.folder other) :
    later.file? other = s.file? other := by
  rw [Surroundings.file?, Surroundings.file?, changed.folder]
  exact changed.files _ apart

end Changed

/-- A request that changes no file but those that some paths name, whatever comes of it. -/
def Changes (paths : List Path) (act : StateM Surroundings α) : Prop :=
  ∀ s, Changed paths s (act.run s).2

namespace Changes

theorem pure (value : α) : Changes paths (Pure.pure value : StateM Surroundings α) :=
  Changed.refl paths

theorem bind {act : StateM Surroundings α} {next : α → StateM Surroundings β}
    (first : Changes paths act) (second : ∀ value, Changes paths (next value)) :
    Changes paths (act >>= next) :=
  fun s => (first s).trans (second _ _)

theorem note (notice : Notice) : Changes paths (Host.note notice : StateM Surroundings Unit) := by
  intro s
  obtain ⟨notices, noted⟩ := s.exists_notices notice
  rw [noted]
  exact .notices paths s notices

theorem print (text : String) : Changes paths (Host.print text : StateM Surroundings Unit) :=
  fun _ => ⟨rfl, rfl, id, fun _ => id, fun _ _ => rfl⟩

theorem now : Changes paths (Host.now : StateM Surroundings Instant) :=
  Changed.refl paths

theorem makeFolders (path : Path) :
    Changes paths (Host.makeFolders path : StateM Surroundings (Except Fault Unit)) :=
  fun s => .of_furnished (Furnishes.makeFirst _ s) paths

theorem create (path : Path) :
    Changes [path] (Host.create path : StateM Surroundings (Except Fault Unit)) := by
  intro s
  rw [Surroundings.run_create, Disk.create]
  cases found : s.disk.locateFile s.folder path with
  | error fault => exact .refl [path] s
  | ok location => exact .of_put (Disk.opens_of_locateFile found) id

theorem touch (path : Path) :
    Changes [path] (Host.touch path : StateM Surroundings (Except Fault Unit)) := by
  intro s
  rw [Surroundings.run_touch, Disk.touch]
  cases found : s.disk.locateFile s.folder path with
  | error fault => exact .refl [path] s
  | ok location =>
    dsimp only [Except.map]
    split
    · exact .refl [path] s
    · exact .of_put (Disk.opens_of_locateFile found) id

theorem append (path : Path) (bytes : ByteArray) :
    Changes [path] (Host.append path bytes : StateM Surroundings (Except Fault Unit)) := by
  intro s
  rw [Surroundings.run_append, Disk.append]
  cases found : s.disk.locateFile s.folder path with
  | error fault => exact .refl [path] s
  | ok location =>
    dsimp only
    split
    · refine .of_put (Disk.opens_of_locateFile found) fun endless => ?_
      rw [endless]
      rfl
    · exact .refl [path] s

section Attempt

variable {part : Attempt (StateM Surroundings) α}

theorem changed {result : Except Failure α} (changes : Changes paths part.run)
    (ran : part.run s = (result, later)) : Changed paths s later := by
  have after := changes s
  change Changed paths s (part.run s).2 at after
  rwa [ran] at after

theorem attempt_bind {next : α → Attempt (StateM Surroundings) β} (first : Changes paths part.run)
    (second : ∀ value, Changes paths (next value).run) : Changes paths (part >>= next).run := by
  intro s
  change Changed paths s ((part >>= next).run s).2
  rw [Attempt.run_bind]
  cases ran : part.run s with
  | mk result between =>
    cases result with
    | error failure => exact first.changed ran
    | ok value => exact (first.changed ran).trans (second value between)

theorem ask {request : StateM Surroundings (Except Fault α)} (changes : Changes paths request)
    (cause : Fault → Cause) : Changes paths (Attempt.ask request cause).run := by
  refine changes.bind fun result => ?_
  cases result <;> exact pure _

theorem within (context : String) (changes : Changes paths part.run) :
    Changes paths (Attempt.within context part).run := by
  refine changes.bind fun result => ?_
  cases result <;> exact pure _

theorem sure {request : StateM Surroundings α} (changes : Changes paths request) :
    Changes paths (Attempt.sure request).run :=
  changes.bind fun _ => pure _

end Attempt

end Changes

end SnippetAudit
