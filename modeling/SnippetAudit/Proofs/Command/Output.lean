import SnippetAudit.Command.Output
import SnippetAudit.Proofs.Archive.File
import SnippetAudit.Proofs.Store.Files

/-!
What showing something leaves: a file that holds the text of what is shown and nothing else, if it
goes through, and all other files as they were in any case.
-/

namespace SnippetAudit

variable {s later : Surroundings} {path : Path}

theorem changes_createFile (path : Path) :
    Changes [path] (createFile path : Attempt (StateM Surroundings) Unit).run := by
  have made := ((Changes.create path).ask .system).within ("Failed to create " ++ path.text)
  unfold createFile
  split
  · exact .attempt_bind (((Changes.makeFolders _).ask .system).within _) fun _ => made
  · exact made

/-- Showing something changes no file but the one it is shown in. -/
theorem Target.changes_show (target : Target) (what : String) (exhibit : Exhibit) :
    Changes target.path.toList
      (target.show what exhibit : Attempt (StateM Surroundings) Unit).run := by
  unfold Target.show
  split
  · exact (Changes.print _).sure
  · rename_i path named
    rw [named]
    exact .attempt_bind (changes_createFile path) fun _ => ((Changes.append path _).ask _).within _

theorem holds_of_create
    (created : (Host.create path : StateM Surroundings (Except Fault Unit)).run s =
      (.ok (), later)) : Holds later path .empty := by
  rw [Surroundings.run_create, Disk.create] at created
  cases found : s.disk.locateFile s.folder path with
  | error fault =>
    rw [found] at created
    cases created
  | ok location =>
    rw [found] at created
    cases created
    have opens := Disk.opens_of_locateFile found
    have same := opens.eq_aim
    subst same
    exact ⟨opens.put_file .empty, Disk.get?_put_self opens.ne_nil⟩

theorem Holds.append {old bytes : ByteArray} (holds : Holds s path old)
    (appended : (Host.append path bytes : StateM Surroundings (Except Fault Unit)).run s =
      (.ok (), later)) : Holds later path (old ++ bytes) := by
  obtain ⟨disk, ran, opens, file, -⟩ := Disk.append_of_opens holds.opens holds.file bytes
  rw [Surroundings.run_append, ran] at appended
  dsimp only at appended
  split at appended
  · cases appended
  · rename_i none
    cases appended
    have whole : s.disk.fitting bytes = bytes := by
      refine Disk.fitting_eq_self fun short => ?_
      rw [if_pos short] at none
      cases none
    rw [whole] at file
    exact ⟨opens, file⟩

/-- A file that has just been made holds nothing. -/
theorem holds_of_createFile
    (created : (createFile path : Attempt (StateM Surroundings) Unit).run s = (.ok (), later)) :
    Holds later path .empty := by
  unfold createFile at created
  split at created
  · obtain ⟨_, between, -, made⟩ := Attempt.run_bind_eq_ok_iff.mp created
    exact holds_of_create (Attempt.run_ask_eq_ok_iff.mp (Attempt.run_within_eq_ok_iff.mp made))
  · exact holds_of_create (Attempt.run_ask_eq_ok_iff.mp (Attempt.run_within_eq_ok_iff.mp created))

/-- What is shown in a file is all that the file holds. -/
theorem Target.holds_of_show {target : Target} {what : String} {exhibit : Exhibit}
    (named : target.path = some path)
    (shown : (target.show what exhibit : Attempt (StateM Surroundings) Unit).run s =
      (.ok (), later)) :
    Holds later path (exhibit.render target.format target.colors).toUTF8 := by
  rw [Target.show, named] at shown
  obtain ⟨_, between, made, written⟩ := Attempt.run_bind_eq_ok_iff.mp shown
  have appended := Attempt.run_ask_eq_ok_iff.mp (Attempt.run_within_eq_ok_iff.mp written)
  have holds := (holds_of_createFile made).append appended
  rwa [ByteArray.empty_append] at holds

theorem run_create_of_opens (opens : s.disk.Opens s.folder path (Disk.aim s.folder path)) :
    (Host.create path : StateM Surroundings (Except Fault Unit)).run s = (.ok (),
      { s with disk := s.disk.put (Disk.aim s.folder path) (.file .empty) }) := by
  rw [Surroundings.run_create, Disk.create, Disk.locateFile_of_opens opens]
  rfl

/-- Where a file can be written, in a folder that is there and without a limit of room, nothing keeps
something from being shown in it. -/
theorem Target.exists_show {target : Target} (named : target.path = some path)
    (near : Host.folderOf? path = none) (endless : s.disk.room = none)
    (opens : s.disk.Opens s.folder path (Disk.aim s.folder path)) (what : String)
    (exhibit : Exhibit) :
    ∃ later, (target.show what exhibit : Attempt (StateM Surroundings) Unit).run s =
      (.ok (), later) := by
  have created := run_create_of_opens opens
  have holds := holds_of_create created
  obtain ⟨later, appended, -⟩ := Disk.append_of_opens holds.opens holds.file
    (exhibit.render target.format target.colors).toUTF8
  have fits : ∀ bytes : ByteArray,
      (s.disk.put (Disk.aim s.folder path) (.file .empty)).fitting bytes = bytes := by
    intro bytes
    rw [Disk.fitting, Disk.put, endless]
  rw [fits, if_neg (Nat.lt_irrefl _)] at appended
  have made : (createFile path : Attempt (StateM Surroundings) Unit).run s = (.ok (),
      { s with disk := s.disk.put (Disk.aim s.folder path) (.file .empty) }) := by
    rw [createFile, near]
    exact Attempt.run_within_eq_ok_iff.mpr (Attempt.run_ask_eq_ok_iff.mpr created)
  refine ⟨{ s with disk := later }, ?_⟩
  rw [Target.show, named]
  refine Attempt.run_bind_eq_ok_iff.mpr ⟨(), _, made, ?_⟩
  refine Attempt.run_within_eq_ok_iff.mpr (Attempt.run_ask_eq_ok_iff.mpr ?_)
  rw [Surroundings.run_append, appended]

/-- A command whose failures are never the caller's fault. -/
def Blameless {α : Type} (part : Attempt (StateM Surroundings) α) : Prop :=
  ∀ s failure later, part.run s = (.error failure, later) → failure.exitCode = 1

namespace Blameless

variable {α β : Type} {part : Attempt (StateM Surroundings) α}

theorem bind {next : α → Attempt (StateM Surroundings) β} (first : Blameless part)
    (second : ∀ value, Blameless (next value)) : Blameless (part >>= next) := by
  intro s failure later ran
  rw [Attempt.run_bind] at ran
  cases before : part.run s with
  | mk result between =>
    rw [before] at ran
    cases result with
    | error cause =>
      cases ran
      exact first s failure later before
    | ok value => exact second value between failure later ran

theorem sure (request : StateM Surroundings α) : Blameless (Attempt.sure request) := by
  intro s failure later ran
  rw [Attempt.run_sure] at ran
  cases ran

theorem ask (request : StateM Surroundings (Except Fault α)) :
    Blameless (Attempt.ask request .system) := by
  intro s failure later ran
  rw [Attempt.run_ask] at ran
  cases asked : request.run s with
  | mk result between =>
    rw [asked] at ran
    cases result with
    | error fault =>
      cases ran
      rfl
    | ok value => cases ran

theorem within (blameless : Blameless part) (context : String) :
    Blameless (Attempt.within context part) := by
  intro s failure later ran
  rw [Attempt.run_within] at ran
  cases before : part.run s with
  | mk result between =>
    rw [before] at ran
    cases result with
    | error cause =>
      cases ran
      exact blameless s cause later before
    | ok value => cases ran

end Blameless

theorem blameless_createFile (path : Path) : Blameless (createFile path) := by
  have made := (Blameless.ask (Host.create path)).within ("Failed to create " ++ path.text)
  unfold createFile
  split
  · exact ((Blameless.ask _).within _).bind fun _ => made
  · exact made

theorem Target.blameless_show (target : Target) (what : String) (exhibit : Exhibit) :
    Blameless (target.show what exhibit) := by
  unfold Target.show
  split
  · exact .sure _
  · exact (blameless_createFile _).bind fun _ => (Blameless.ask _).within _

end SnippetAudit
