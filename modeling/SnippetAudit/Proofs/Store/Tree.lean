import SnippetAudit.Proofs.Path.Components

/-!
Disks as trees of files. The files that are met below a folder are those that are there, at any depth,
and the paths they are given lead down to them from the path of the folder.
-/

namespace SnippetAudit.Disk

open Text

variable {disk later : Disk} {folder location place names : Location} {item : Item} {path : Path}
  {bytes : ByteArray}

/-- A disk on which there is at most one thing at each place but the root, and every place has names
that paths can lead along. -/
structure Tidy (disk : Disk) : Prop where
  once : (disk.items.map (·.1)).Nodup
  below : ∀ entry ∈ disk.items, entry.1 ≠ []
  proper : ∀ entry ∈ disk.items, ∀ name ∈ entry.1, ProperName name

theorem lookup_of_mem {items : List (Location × Item)} (once : (items.map (·.1)).Nodup)
    (member : (location, item) ∈ items) : items.lookup location = some item := by
  induction items with
  | nil => exact absurd member List.not_mem_nil
  | cons entry items ih =>
    obtain ⟨fresh, others⟩ := List.nodup_cons.mp once
    rw [List.lookup_cons]
    rcases List.mem_cons.mp member with rfl | behind
    · rw [BEq.rfl]
    · have different : location ≠ entry.1 := by
        rintro rfl
        exact fresh (List.mem_map.mpr ⟨_, behind, rfl⟩)
      rw [beq_false_of_ne different]
      exact ih others behind

theorem mem_of_get? (named : location ≠ []) (there : disk.get? location = some item) :
    (location, item) ∈ disk.items := by
  have full : location.isEmpty = false := by simpa using named
  rw [get?, full] at there
  obtain ⟨front, back, cut, -⟩ := List.lookup_eq_some_iff.mp there
  rw [cut]
  exact List.mem_append_right front List.mem_cons_self

namespace Tidy

theorem get?_of_mem (tidy : disk.Tidy) (member : (location, item) ∈ disk.items) :
    disk.get? location = some item := by
  have full : location.isEmpty = false := by simpa using tidy.below _ member
  rw [get?, full]
  exact lookup_of_mem tidy.once member

theorem proper_of_get? (tidy : disk.Tidy) (there : disk.get? location = some item) :
    ∀ name ∈ location, ProperName name := by
  by_cases root : location = []
  · subst root
    exact fun name member => absurd member List.not_mem_nil
  · exact tidy.proper _ (mem_of_get? root there)

/-- The files below a place are those at the places that lie below it. -/
theorem mem_filesBelow_iff (tidy : disk.Tidy) :
    names ∈ disk.filesBelow location ↔
      ∃ bytes, disk.get? (location ++ names) = some (.file bytes) := by
  rw [filesBelow, List.mem_filterMap]
  constructor
  · rintro ⟨⟨place, item⟩, member, met⟩
    dsimp only at met
    split at met
    · rename_i lies
      rw [Bool.and_eq_true, List.isPrefixOf_iff_prefix] at lies
      obtain ⟨⟨rest, rfl⟩, isFile⟩ := lies
      rw [List.drop_left] at met
      cases met
      cases item with
      | folder => cases isFile
      | file bytes => exact ⟨bytes, tidy.get?_of_mem member⟩
    · cases met
  · rintro ⟨bytes, there⟩
    have named : location ++ names ≠ [] := by
      intro root
      rw [root] at there
      cases there
    refine ⟨(location ++ names, .file bytes), mem_of_get? named there, ?_⟩
    have lies : location.isPrefixOf (location ++ names) = true :=
      List.isPrefixOf_iff_prefix.mpr (List.prefix_append location names)
    dsimp only
    rw [lies, Item.isFolder, Bool.not_false, Bool.and_self, if_pos rfl, List.drop_left]

theorem mem_pathsBelow_iff (tidy : disk.Tidy) (found : disk.locate folder path = .ok location)
    {other : Path} :
    other ∈ disk.pathsBelow folder path ↔ ∃ names bytes,
      disk.get? (location ++ names) = some (.file bytes) ∧
        other = path.join ⟨"/".intercalate names⟩ := by
  simp only [pathsBelow, found, List.mem_map, tidy.mem_filesBelow_iff]
  constructor
  · rintro ⟨names, ⟨bytes, there⟩, rfl⟩
    exact ⟨names, bytes, there, rfl⟩
  · rintro ⟨names, bytes, there, rfl⟩
    exact ⟨names, ⟨bytes, there⟩, rfl⟩

/-- The path given to a file below a folder has the names on the way down behind the components of the
path of the folder. -/
theorem components_below (tidy : disk.Tidy) (found : disk.locate folder path = .ok location)
    (here : disk.get? location = some .folder)
    (there : disk.get? (location ++ names) = some (.file bytes)) :
    (path.join ⟨"/".intercalate names⟩).components =
      path.components ++ names.map Path.Component.name := by
  have some' : names ≠ [] := by
    rintro rfl
    rw [List.append_nil, here] at there
    cases there
  have full : path.text ≠ "" := by
    intro empty
    rw [locate, refusal?, empty] at found
    cases found
  have proper := tidy.proper_of_get? there
  exact Path.components_join_names full some' fun name member =>
    proper name (List.mem_append_right location member)

/-! No operation makes a disk untidy. -/

theorem empty (room : Option Nat) : Tidy ⟨[], room⟩ :=
  ⟨List.nodup_nil, nofun, nofun⟩

theorem put (tidy : disk.Tidy) (named : location ≠ []) (proper : ∀ name ∈ location, ProperName name)
    (item : Item) : (disk.put location item).Tidy where
  once := by
    have kept : ((disk.items.filter (·.1 != location)).map (·.1)).Nodup :=
      tidy.once.sublist (List.filter_sublist.map _)
    rw [Disk.put, List.map_append, List.nodup_append]
    refine ⟨kept, List.pairwise_singleton _ _, fun other member last only => ?_⟩
    obtain ⟨entry, listed, rfl⟩ := List.mem_map.mp member
    rw [List.mem_singleton.mp only]
    exact bne_iff_ne.mp (List.mem_filter.mp listed).2
  below entry member := by
    rcases List.mem_append.mp member with old | new
    · exact tidy.below entry (List.mem_filter.mp old).1
    · rw [List.mem_singleton.mp new]
      exact named
  proper entry member := by
    rcases List.mem_append.mp member with old | new
    · exact tidy.proper entry (List.mem_filter.mp old).1
    · rw [List.mem_singleton.mp new]
      exact proper

theorem properName_of_slice {path : Path} {slice : List Char} (piece : slice ∈ path.slices)
    (moves : ¬(slice = [] ∨ slice = ['.'] ∨ slice = ['.', '.'])) :
    ProperName (String.ofList slice) := by
  rw [not_or, not_or] at moves
  obtain ⟨some', here, parent⟩ := moves
  rw [← String.toList_ofList (l := slice)] at some' here parent
  refine ⟨some', fun slash => ?_, here, parent⟩
  rw [String.toList_ofList] at slash
  exact separator_not_mem_pieces piece slash

theorem getLast_mem_slices (some' : (trimmedSlices path).getLast?.getD [] ≠ []) :
    (trimmedSlices path).getLast?.getD [] ∈ path.slices := by
  cases last : (trimmedSlices path).getLast? with
  | none =>
    rw [last] at some'
    exact absurd rfl some'
  | some slice =>
    have member := List.mem_reverse.mp (List.mem_of_getLast? last)
    exact List.mem_reverse.mp ((List.dropWhile_sublist _).subset member)

/-- A new place has the names of a folder that is there, and behind them one of its own. -/
theorem of_locateNew (tidy : disk.Tidy)
    (found : disk.locateNew folder path = .ok (some location)) :
    location ≠ [] ∧ ∀ name ∈ location, ProperName name := by
  obtain ⟨-, slice, parent, rfl, moves, -, -, here, rfl⟩ := exists_of_locateNew found
  refine ⟨by simp, fun name member => ?_⟩
  rcases List.mem_append.mp member with above | last
  · exact tidy.proper_of_get? here name above
  · rw [List.mem_singleton.mp last]
    exact properName_of_slice (getLast_mem_slices (not_or.mp moves).1) moves

theorem of_locateFile (tidy : disk.Tidy) (found : disk.locateFile folder path = .ok location) :
    location ≠ [] ∧ ∀ name ∈ location, ProperName name :=
  tidy.of_locateNew (exists_of_locateFile found).1

theorem makeFolder (tidy : disk.Tidy) (made : disk.makeFolder folder path = .ok later) :
    later.Tidy := by
  obtain ⟨location, new, -, rfl⟩ := exists_of_makeFolder made
  obtain ⟨named, proper⟩ := tidy.of_locateNew new
  exact tidy.put named proper .folder

theorem create (tidy : disk.Tidy) (made : disk.create folder path = .ok later) : later.Tidy := by
  rw [Disk.create] at made
  obtain ⟨location, found, rfl⟩ := exists_of_map_eq_ok made
  obtain ⟨named, proper⟩ := tidy.of_locateFile found
  exact tidy.put named proper _

theorem touch (tidy : disk.Tidy) (made : disk.touch folder path = .ok later) : later.Tidy := by
  rw [Disk.touch] at made
  obtain ⟨location, found, rfl⟩ := exists_of_map_eq_ok made
  split
  · exact tidy
  · obtain ⟨named, proper⟩ := tidy.of_locateFile found
    exact tidy.put named proper _

theorem append (tidy : disk.Tidy) (folder : Location) (path : Path) (bytes : ByteArray) :
    (disk.append folder path bytes).1.Tidy := by
  rw [Disk.append]
  split
  · exact tidy
  · rename_i sought
    split
    · obtain ⟨named, proper⟩ := tidy.of_locateFile sought
      have added := tidy.put named proper
      exact ⟨(added _).once, (added _).below, (added _).proper⟩
    · exact tidy

end Tidy

end SnippetAudit.Disk
