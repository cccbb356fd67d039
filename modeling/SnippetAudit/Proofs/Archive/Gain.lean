import SnippetAudit.Proofs.Archive.File
import SnippetAudit.Proofs.Store.Files

/-!
What an archive gains when a report is stored, and what storing leaves as it was.
-/

namespace SnippetAudit

variable {s later : Surroundings} {path : Path} {entry : ArchiveEntry}

theorem Holds.file? {bytes : ByteArray} (holds : Holds s path bytes) :
    s.file? path = some bytes :=
  Disk.file?_eq_some_iff.mpr holds.file

theorem Surroundings.contents_eq : s.contents path = (s.file? path).getD .empty :=
  Disk.contents_eq

namespace ArchiveFile

/-- What storing an entry leaves of an archive: its file as it was, or with the whole line of the entry
behind. Where room is limited and runs out, the file gains the start of the line. -/
inductive Gained (s : Surroundings) (path : Path) (entry : ArchiveEntry) :
    Except Failure ArchiveEntry → Surroundings → Prop
  | nothing {failure : Failure} {later : Surroundings} (same : later.file? path = s.file? path) :
    Gained s path entry (.error failure) later
  | record {later : Surroundings}
    (whole : later.file? path = some (s.contents path ++ lineBytes entry)) :
    Gained s path entry (.ok entry) later
  | start {failure : Failure} {later : Surroundings} {stop : Nat} (limited : s.disk.room ≠ none)
    (short : stop < (lineBytes entry).size)
    (part : later.file? path = some (s.contents path ++ (lineBytes entry).extract 0 stop)) :
    Gained s path entry (.error failure) later

/-- What happened to other files before does not matter to what an archive gains. -/
theorem Gained.of_changed {paths : List Path} {between : Surroundings}
    {result : Except Failure ArchiveEntry} (gained : Gained between path entry result later)
    (changed : Changed paths s between)
    (apart : ∀ other ∈ paths, Disk.aim s.folder other ≠ Disk.aim s.folder path) :
    Gained s path entry result later := by
  have same : between.file? path = s.file? path := changed.file? apart
  have contents : between.contents path = s.contents path := by
    rw [Surroundings.contents_eq, Surroundings.contents_eq, same]
  cases gained with
  | nothing kept => exact .nothing (kept.trans same)
  | record whole => exact .record (contents ▸ whole)
  | start limited short part =>
    exact .start (fun endless => limited (changed.room endless)) short (contents ▸ part)

theorem Gained.notices {result : Except Failure ArchiveEntry}
    (gained : Gained s path entry result later) (notices : Array Notice) :
    Gained s path entry result { later with notices } := by
  cases gained with
  | nothing same => exact .nothing same
  | record whole => exact .record whole
  | start limited short part => exact .start limited short part

theorem gained_store (path : Path) (code : String) (report : Report) (s : Surroundings) :
    Gained s path (.make code report s.now)
      ((store path code report : Attempt (StateM Surroundings) ArchiveEntry).run s).1
      ((store path code report : Attempt (StateM Surroundings) ArchiveEntry).run s).2 := by
  obtain ⟨outcome, later, added, notices, ran⟩ := exists_added_store path code report s
  rw [ran]
  cases added with
  | nothing early furnished blocked =>
    exact .nothing ((Changed.of_furnished furnished []).file? (by simp))
  | everything same whole room holds => exact .record holds.file?
  | part same short holds =>
    have file := holds.file?
    unfold Disk.fitting at short file
    split at short
    · exact absurd short (Nat.lt_irrefl _)
    · rename_i room limit
      rw [limit] at file
      rw [ByteArray.size_extract] at short
      exact .start (by rw [limit]; exact Option.some_ne_none room) (by omega) file

theorem changes_makeFolder (path : Path) (paths : List Path) :
    Changes paths (makeFolder path : Attempt (StateM Surroundings) Unit).run := by
  unfold makeFolder
  split
  · exact (Changes.makeFolders _).ask _
  · exact .pure _

theorem changes_add (path : Path) (bytes : ByteArray) :
    Changes [path] (add path bytes : Attempt (StateM Surroundings) Unit).run :=
  .attempt_bind (changes_makeFolder path [path]) fun _ =>
    .attempt_bind ((Changes.touch path).ask _) fun _ => (Changes.append path bytes).ask _

/-- Storing a report changes no file but the archive. -/
theorem changes_store (path : Path) (code : String) (report : Report) :
    Changes [path] (store path code report : Attempt (StateM Surroundings) ArchiveEntry).run := by
  rw [store_eq]
  exact .attempt_bind Changes.now.sure fun _ => .attempt_bind (changes_add path _) fun _ =>
    .attempt_bind (Changes.note _).sure fun _ => .pure _

/-- Trying to store a report is storing it, but for a notice of what has come of it. -/
theorem exists_notices_tryStore (path : Path) (code : String) (report : Report)
    (s : Surroundings) :
    ∃ notices, (tryStore path code report : StateM Surroundings Unit).run s =
      ((), { ((store path code report : Attempt (StateM Surroundings) ArchiveEntry).run s).2 with
        notices }) := by
  rw [tryStore, StateT.run_bind]
  generalize (store path code report : Attempt (StateM Surroundings) ArchiveEntry).run = stored
  have ran : stored.run s = stored s := rfl
  rw [ran]
  cases stored s with
  | mk outcome later => cases outcome <;> exact later.exists_notices _

theorem gained_tryStore (path : Path) (code : String) (report : Report) (s : Surroundings) :
    Gained s path (.make code report s.now)
      ((store path code report : Attempt (StateM Surroundings) ArchiveEntry).run s).1
      ((tryStore path code report : StateM Surroundings Unit).run s).2 := by
  obtain ⟨notices, ran⟩ := exists_notices_tryStore path code report s
  rw [ran]
  exact (gained_store path code report s).notices notices

theorem changes_tryStore (path : Path) (code : String) (report : Report) :
    Changes [path] (tryStore path code report : StateM Surroundings Unit) := by
  refine (changes_store path code report).bind fun outcome => ?_
  cases outcome <;> exact .note _

end ArchiveFile

end SnippetAudit
