import SnippetAudit.Proofs.Archive.Line
import SnippetAudit.Proofs.Command.Attempt
import SnippetAudit.Proofs.Store.Folders

/-!
Archive files on a recorded host: what storing leaves at the end of the file, whether it goes through
or is cut short, and what listing finds there.
-/

namespace SnippetAudit

open Text

variable {α β : Type} {s later : Surroundings} {path : Path} {bytes : ByteArray}

/-- The file that a path leads to holds some bytes, and more can be written behind them. -/
structure Holds (s : Surroundings) (path : Path) (bytes : ByteArray) : Prop where
  opens : s.disk.Opens s.folder path (Disk.aim s.folder path)
  file : s.disk.get? (Disk.aim s.folder path) = some (.file bytes)

def Surroundings.contents (s : Surroundings) (path : Path) : ByteArray :=
  s.disk.contents (Disk.aim s.folder path)

theorem Holds.contents (holds : Holds s path bytes) : s.contents path = bytes := by
  rw [Surroundings.contents, Disk.contents, holds.file]

theorem Holds.read (holds : Holds s path bytes) : s.disk.read s.folder path = .ok bytes :=
  holds.opens.read holds.file

namespace ArchiveFile

/-- Adds bytes at the end of an archive, which is made if it is not there. -/
def add {m : Type → Type} [Monad m] [Host m] (path : Path) (bytes : ByteArray) : Attempt m Unit := do
  makeFolder path
  Attempt.ask (Host.touch path) (.archive .openFile)
  Attempt.ask (Host.append path bytes) (.archive .append)

/-- What adding bytes at the end of an archive comes to: nothing but folders is made, or all of the
bytes are added, or as many of the first of them as there is room for. Where no folder has to be
made, nothing is added only if no file can be written. -/
inductive Added (s : Surroundings) (path : Path) (bytes : ByteArray) :
    Except Failure Unit × Surroundings → Prop
  | nothing {stage : ArchiveStep} {fault : Fault} {later : Surroundings} (early : stage ≠ .append)
    (furnished : Furnished s later) (blocked : Host.folderOf? path = none →
      ¬s.disk.Opens s.folder path (Disk.aim s.folder path)) :
    Added s path bytes (.error (.of (.archive stage fault)), later)
  | everything {later : Surroundings} (same : later.folder = s.folder)
    (whole : s.disk.fitting bytes = bytes)
    (room : s.disk.room = none → later.disk.room = none)
    (holds : Holds later path (s.contents path ++ bytes)) : Added s path bytes (.ok (), later)
  | part {later : Surroundings} (same : later.folder = s.folder)
    (short : (s.disk.fitting bytes).size < bytes.size)
    (holds : Holds later path (s.contents path ++ s.disk.fitting bytes)) :
    Added s path bytes (.error (.of (.archive .append .full)), later)

/-- Making the folder of an archive makes nothing but folders, and nothing at all if there is none to
make. -/
theorem run_makeFolder (path : Path) (s : Surroundings) :
    ∃ later, Furnished s later ∧ (Host.folderOf? path = none → later = s) ∧
      ((makeFolder path : Attempt (StateM Surroundings) Unit).run s = (.ok (), later) ∨
        Host.folderOf? path ≠ none ∧
          ∃ fault, (makeFolder path : Attempt (StateM Surroundings) Unit).run s =
            (.error (.of (.archive .makeFolder fault)), later)) := by
  unfold makeFolder
  split
  · rename_i folder named
    have furnished := Furnishes.makeFirst (folder.ancestors (folder.components.length + 1)) s
    have other : Host.folderOf? path ≠ none := by simp [named]
    refine ⟨_, furnished, fun none => absurd none other, ?_⟩
    rw [Attempt.run_ask, Host.makeFolders]
    cases ran : (Host.makeFirst (folder.ancestors (folder.components.length + 1)) :
        StateM Surroundings (Except Fault Unit)).run s with
    | mk result later =>
      cases result with
      | ok _ => exact Or.inl rfl
      | error fault => exact Or.inr ⟨other, fault, rfl⟩
  · exact ⟨s, .refl s, fun _ => rfl, Or.inl rfl⟩

theorem added_add (path : Path) (bytes : ByteArray) (s : Surroundings) :
    Added s path bytes ((add path bytes : Attempt (StateM Surroundings) Unit).run s) := by
  obtain ⟨made, furnished, unmade, folders⟩ := run_makeFolder path s
  rw [add, Attempt.run_bind]
  rcases folders with ran | ⟨named, fault, ran⟩
  · rw [ran]
    dsimp only
    rw [Attempt.run_bind, Attempt.run_ask, Surroundings.run_touch]
    cases touched : made.disk.touch made.folder path with
    | error fault =>
      refine .nothing (by decide) furnished fun none opens => ?_
      obtain ⟨later, found⟩ := Disk.exists_touch opens
      rw [unmade none, found] at touched
      cases touched
    | ok disk =>
      dsimp only
      obtain ⟨opens, file, room⟩ := Disk.opens_of_touch touched
      obtain ⟨later, appended, opens', file', left⟩ := Disk.append_of_opens opens file bytes
      have old : made.disk.contents (Disk.aim made.folder path) = s.contents path := by
        rw [furnished.contents, furnished.folder, Surroundings.contents]
      have fits : disk.fitting bytes = s.disk.fitting bytes := by
        rw [Disk.fitting, Disk.fitting, room, furnished.room]
      rw [old, fits] at file'
      rw [fits] at appended
      rw [Attempt.run_ask, Surroundings.run_append, appended]
      dsimp only
      have same : made.folder = s.folder := furnished.folder
      by_cases short : (s.disk.fitting bytes).size < bytes.size
      · rw [if_pos short]
        exact .part same short ⟨opens', file'⟩
      · rw [if_neg short]
        have whole : s.disk.fitting bytes = bytes := Disk.fitting_eq_self short
        rw [whole] at file'
        refine .everything same whole (fun endless => ?_) ⟨opens', file'⟩
        rw [left, room, furnished.room, endless]
        rfl
  · rw [ran]
    exact .nothing (by decide) furnished fun none => absurd none named

def lineBytes (entry : ArchiveEntry) : ByteArray :=
  (entry.line ++ "\n").toUTF8

theorem store_eq (path : Path) (code : String) (report : Report) :
    (store path code report : Attempt (StateM Surroundings) ArchiveEntry) = (do
      let now ← Attempt.sure Host.now
      let entry := ArchiveEntry.make code report now
      add path (lineBytes entry)
      Attempt.note .debug ("Archived report " ++ entry.id ++ " to " ++ path.text)
      return entry) := by
  simp only [store, add, lineBytes, bind_assoc]

/-- Storing a report adds the line of its entry, gives the entry if all of the line fits, and does
nothing else to the archive. -/
theorem exists_added_store (path : Path) (code : String) (report : Report) (s : Surroundings) :
    ∃ outcome later, Added s path (lineBytes (.make code report s.now)) (outcome, later) ∧
      ∃ notices, (store path code report : Attempt (StateM Surroundings) ArchiveEntry).run s =
        (outcome.map fun _ => .make code report s.now, { later with notices }) := by
  have added := added_add path (lineBytes (.make code report s.now)) s
  have now : (Host.now : StateM Surroundings Instant).run s = (s.now, s) := rfl
  cases ran : (add path (lineBytes (.make code report s.now)) :
      Attempt (StateM Surroundings) Unit).run s with
  | mk outcome later =>
    rw [ran] at added
    refine ⟨outcome, later, added, ?_⟩
    rw [store_eq, Attempt.run_bind, Attempt.run_sure, now]
    dsimp only
    rw [Attempt.run_bind, ran]
    cases outcome with
    | error failure => exact ⟨later.notices, rfl⟩
    | ok _ =>
      dsimp only
      obtain ⟨notices, noted⟩ := Surroundings.exists_notices
        (.plain .debug ("Archived report " ++ (ArchiveEntry.make code report s.now).id ++ " to " ++
          path.text)) later
      rw [Attempt.run_bind, Attempt.note, ← Attempt.sure, Attempt.run_sure, noted]
      exact ⟨notices, rfl⟩

theorem run_readText (path : Path) (s : Surroundings) :
    (Host.readText path : StateM Surroundings (Except Fault String)).run s =
      (match s.disk.read s.folder path with
        | .error fault => .error fault
        | .ok bytes => match String.fromUTF8? bytes with
          | some text => .ok text
          | none => .error .noText, s) :=
  Host.run_readText rfl

theorem exists_notices_noteCorrupt (path : Path) (found : List (Nat × Option ArchiveEntry))
    (s : Surroundings) :
    ∃ notices, (noteCorrupt path found : StateM Surroundings Unit).run s = ((), { s with notices }) := by
  obtain ⟨notices, noted⟩ := Surroundings.exists_notices_forM
    (fun line : Nat × Option ArchiveEntry => .plain .warn
      ("Skipping corrupt archive entry " ++ path.text ++ ":" ++ toString line.1))
    (found.filter (·.2.isNone)) s
  exact ⟨notices, noted⟩

theorem fromUTF8?_toUTF8 (text : String) : String.fromUTF8? text.toUTF8 = some text :=
  dif_pos text.isValidUTF8

theorem run_list_of_missing (missing : s.disk.read s.folder path = .error .missing) :
    (list path : Attempt (StateM Surroundings) (List ArchiveEntry)).run s = (.ok [], s) := by
  rw [list, Attempt.run_bind, Attempt.run_sure, run_readText, missing]
  rfl

theorem exists_run_list_of_read (stored : s.disk.read s.folder path = .ok bytes) {text : String}
    (decodes : String.fromUTF8? bytes = some text) :
    ∃ notices, (list path : Attempt (StateM Surroundings) (List ArchiveEntry)).run s =
      (.ok (entriesOf text), { s with notices }) := by
  obtain ⟨notices, noted⟩ := exists_notices_noteCorrupt path (read text) s
  refine ⟨notices, ?_⟩
  rw [list, Attempt.run_bind, Attempt.run_sure, run_readText, stored]
  simp only [decodes]
  rw [Attempt.run_bind, Attempt.run_sure, noted]
  rfl

theorem run_list_of_read_noText (stored : s.disk.read s.folder path = .ok bytes)
    (noText : String.fromUTF8? bytes = none) :
    (list path : Attempt (StateM Surroundings) (List ArchiveEntry)).run s =
      (.error (.of (.archive .read .noText)), s) := by
  rw [list, Attempt.run_bind, Attempt.run_sure, run_readText, stored]
  simp only [noText]
  rfl

theorem exists_run_list (holds : Holds s path bytes) {text : String}
    (decodes : String.fromUTF8? bytes = some text) :
    ∃ notices, (list path : Attempt (StateM Surroundings) (List ArchiveEntry)).run s =
      (.ok (entriesOf text), { s with notices }) :=
  exists_run_list_of_read holds.read decodes

theorem run_list_of_noText (holds : Holds s path bytes)
    (noText : String.fromUTF8? bytes = none) :
    (list path : Attempt (StateM Surroundings) (List ArchiveEntry)).run s =
      (.error (.of (.archive .read .noText)), s) :=
  run_list_of_read_noText holds.read noText

end ArchiveFile

end SnippetAudit
