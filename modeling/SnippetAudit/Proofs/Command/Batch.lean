import SnippetAudit.Command.Batch
import SnippetAudit.Proofs.Command.Attempt
import SnippetAudit.Proofs.Path.Order
import SnippetAudit.Proofs.Repetition
import SnippetAudit.Proofs.Store.Tree

/-!
The files of a batch. They are those that the given paths stand for, each once and in the order of
paths; so it does not matter in which order the paths are given, whether one is given twice, and
whether a folder has another one in it.
-/

namespace SnippetAudit

variable {s : Surroundings} {paths more : List Path} {argument path : Path}

/-- The files that are collected for some paths. -/
def collected (s : Surroundings) (paths : List Path) : List Path :=
  ((collectFiles paths : StateM Surroundings (List Path)).run s).1

/-- What a path stands for, as it is found. -/
def expansion (s : Surroundings) (path : Path) : List Path :=
  if s.disk.leadsToFolder s.folder path then s.disk.pathsBelow s.folder path else [path]

/-- A given path stands for another one: it leads to no folder and is the same path, or it leads to a
folder, below which there is a file, and the names on the way down to the file are behind it. -/
inductive StandsFor (s : Surroundings) (argument path : Path) : Prop where
  | itself : s.disk.leadsToFolder s.folder argument = false →
      path.components = argument.components → StandsFor s argument path
  | below {place names : Location} {bytes : ByteArray} :
      s.disk.locate s.folder argument = .ok place → s.disk.get? place = some .folder →
      s.disk.get? (place ++ names) = some (.file bytes) →
      path.components = argument.components ++ names.map .name → StandsFor s argument path

namespace Disk

variable {disk : Disk} {folder : Location}

theorem leadsToFolder_iff : disk.leadsToFolder folder path = true ↔
    ∃ place, disk.locate folder path = .ok place ∧ disk.get? place = some .folder := by
  rw [leadsToFolder, find]
  cases located : disk.locate folder path with
  | error fault => simp [Except.bind]
  | ok place =>
    cases here : disk.get? place with
    | none => simp [Except.bind, here]
    | some item => cases item <;> simp [Except.bind, here, Item.isFolder]

theorem leads_iff : disk.leads folder path = true ↔
    ∃ place item, disk.locate folder path = .ok place ∧ disk.get? place = some item := by
  rw [leads, find]
  cases located : disk.locate folder path with
  | error fault => simp [Except.bind, Except.isOk, Except.toBool]
  | ok place =>
    cases here : disk.get? place <;> simp [Except.bind, here, Except.isOk, Except.toBool]

theorem aim_of_locate {place : Location} (found : disk.locate folder path = .ok place) :
    place = aim folder path := by
  rw [locate] at found
  split at found
  · cases found
  · exact eq_goAlong_of_walk found

end Disk

theorem run_expandPath (s : Surroundings) (path : Path) :
    (expandPath path : StateM Surroundings (List Path)).run s = (expansion s path, s) := by
  rw [expandPath, expansion]
  change (if s.disk.leadsToFolder s.folder path then _ else _ :
    StateM Surroundings (List Path)).run s = _
  split <;> rfl

theorem run_mapM_expandPath (s : Surroundings) (paths : List Path) :
    (paths.mapM expandPath : StateM Surroundings (List (List Path))).run s =
      (paths.map (expansion s), s) := by
  induction paths with
  | nil => rfl
  | cons path paths ih =>
    rw [List.mapM_cons, Host.run_bind_of_run (run_expandPath s path), Host.run_bind_of_run ih]
    rfl

theorem run_collectFiles (s : Surroundings) (paths : List Path) :
    (collectFiles paths : StateM Surroundings (List Path)).run s =
      (((paths.flatMap (expansion s)).mergeSort Path.le).eraseRepsBy Path.same, s) := by
  rw [collectFiles, Host.run_bind_of_run (run_mapM_expandPath s paths)]
  rfl

theorem collected_eq (s : Surroundings) (paths : List Path) :
    collected s paths =
      ((paths.flatMap (expansion s)).mergeSort Path.le).eraseRepsBy Path.same := by
  rw [collected, run_collectFiles]

/-- Files are collected in strict order, each path once. -/
theorem pairwise_collected (s : Surroundings) (paths : List Path) :
    (collected s paths).Pairwise (· < ·) := by
  have sorted : ((paths.flatMap (expansion s)).mergeSort Path.le).Pairwise
      fun a b => a.le b = true :=
    @List.pairwise_mergeSort Path Path.le (fun _ _ _ => Path.le_trans) Path.le_total _
  rw [collected_eq]
  exact pairwise_eraseRepsBy (fun _ _ _ => Path.lt_of_lt_of_le)
    (sorted.imp fun below => Path.le_iff.mp below)

theorem mem_of_mem_collected (member : path ∈ collected s paths) :
    ∃ argument ∈ paths, path ∈ expansion s argument := by
  rw [collected_eq] at member
  have found := (eraseRepsBy_sublist _ _).subset member
  exact List.mem_flatMap.mp (List.mem_mergeSort.mp found)

theorem exists_mem_collected (given : argument ∈ paths) (found : path ∈ expansion s argument) :
    ∃ listed ∈ collected s paths, listed.same path = true := by
  rw [collected_eq]
  refine exists_mem_eraseRepsBy (fun _ => Path.same_iff.mpr rfl) (fun _ _ _ => Path.same_trans) ?_
  exact List.mem_mergeSort.mpr (List.mem_flatMap.mpr ⟨argument, given, found⟩)

/-- A path stands for what is found for it, in any spelling. -/
theorem standsFor_iff (tidy : s.disk.Tidy) :
    StandsFor s argument path ↔ ∃ found ∈ expansion s argument, found.same path = true := by
  simp only [Path.same_iff]
  constructor
  · rintro (⟨noFolder, same⟩ | ⟨located, here, there, same⟩)
    · exact ⟨argument, by simp [expansion, noFolder], same.symm⟩
    · rename_i place names bytes
      have folder := Disk.leadsToFolder_iff.mpr ⟨place, located, here⟩
      refine ⟨argument.join ⟨"/".intercalate names⟩, ?_, ?_⟩
      · rw [expansion, if_pos folder]
        exact (tidy.mem_pathsBelow_iff located).mpr ⟨names, bytes, there, rfl⟩
      · rw [tidy.components_below located here there, same]
  · rintro ⟨found, member, same⟩
    rw [expansion] at member
    split at member
    · rename_i folder
      obtain ⟨place, located, here⟩ := Disk.leadsToFolder_iff.mp folder
      obtain ⟨names, bytes, there, rfl⟩ := (tidy.mem_pathsBelow_iff located).mp member
      refine .below located here there ?_
      rw [← same, tidy.components_below located here there]
    · rename_i noFolder
      rw [List.mem_singleton.mp member] at same
      exact .itself (Bool.eq_false_iff.mpr noFolder) same.symm

/-- What lies below a folder that is given is stood for already. -/
theorem StandsFor.of_below {names : Location} (folder : s.disk.leadsToFolder s.folder argument = true)
    {inner : Path} (leads : s.disk.leads s.folder inner = true)
    (behind : inner.components = argument.components ++ names.map .name)
    (stands : StandsFor s inner path) : StandsFor s argument path := by
  obtain ⟨outer, located, here⟩ := Disk.leadsToFolder_iff.mp folder
  have way (place : Location) (found : s.disk.locate s.folder inner = .ok place) :
      place = outer ++ names := by
    rw [Disk.aim_of_locate found, Disk.aim_of_locate located,
      Disk.aim_of_components_append _ behind]
  rcases stands with ⟨noFolder, same⟩ | ⟨found, -, there, same⟩
  · obtain ⟨place, item, found, there⟩ := Disk.leads_iff.mp leads
    cases item with
    | folder =>
      rw [Disk.leadsToFolder_iff.mpr ⟨place, found, there⟩] at noFolder
      cases noFolder
    | file bytes =>
      rw [way place found] at there
      exact .below located here there (same.trans behind)
  · rename_i place further bytes
    rw [way place found, List.append_assoc] at there
    refine .below located here there ?_
    rw [same, behind, List.map_append, List.append_assoc]

/-- The files that are collected are settled by the paths stood for, but for how they are spelt. -/
theorem collected_congr (tidy : s.disk.Tidy)
    (alike : ∀ path, (∃ argument ∈ paths, StandsFor s argument path) ↔
      ∃ argument ∈ more, StandsFor s argument path) :
    (collected s paths).map Path.components = (collected s more).map Path.components := by
  have within {paths more : List Path}
      (sub : ∀ path, (∃ argument ∈ paths, StandsFor s argument path) →
        ∃ argument ∈ more, StandsFor s argument path) :
      ∀ path ∈ collected s paths, ∃ listed ∈ collected s more, listed.same path = true := by
    intro path member
    obtain ⟨argument, given, found⟩ := mem_of_mem_collected member
    obtain ⟨other, otherGiven, stands⟩ := sub path ⟨argument, given,
      (standsFor_iff tidy).mpr ⟨path, found, Path.same_iff.mpr rfl⟩⟩
    obtain ⟨spelt, otherFound, same⟩ := (standsFor_iff tidy).mp stands
    obtain ⟨listed, kept, sameListed⟩ := exists_mem_collected otherGiven otherFound
    exact ⟨listed, kept, Path.same_trans sameListed same⟩
  exact Path.map_components_eq (pairwise_collected s paths) (pairwise_collected s more)
    (within fun path => (alike path).mp) (within fun path => (alike path).mpr)

/-- Whatever is on a disk and whichever paths are given, nothing is changed by collecting files. What is
collected is in strict order, so no path is there twice; and the paths there are, in some spelling,
those that the given ones stand for. So it makes no difference, but for the spelling, to give paths in
another order or repeatedly, or to give what lies below a folder together with the folder. -/
theorem collectFiles_union (s : Surroundings) (tidy : s.disk.Tidy) (paths : List Path) :
    ((collectFiles paths : StateM Surroundings (List Path)).run s).2 = s ∧
    (collected s paths).Pairwise (fun a b => a < b ∧ a.same b = false) ∧
    (∀ path, (∃ listed ∈ collected s paths, listed.same path = true) ↔
      ∃ argument ∈ paths, StandsFor s argument path) ∧
    (∀ more, more ⊆ paths → paths ⊆ more →
      (collected s more).map Path.components = (collected s paths).map Path.components) ∧
    ∀ inner, (∀ path ∈ inner, s.disk.leads s.folder path = true ∧
        ∃ argument ∈ paths, s.disk.leadsToFolder s.folder argument = true ∧
          ∃ names : Location, path.components = argument.components ++ names.map .name) →
      (collected s (paths ++ inner)).map Path.components =
        (collected s paths).map Path.components := by
  refine ⟨?_, ?_, fun path => ?_, fun more fewer others => ?_, fun inner below => ?_⟩
  · rw [run_collectFiles]
  · refine (pairwise_collected s paths).imp fun {a b} before => ⟨before, ?_⟩
    refine Bool.eq_false_iff.mpr fun alike => ?_
    rw [Path.lt_def, Path.same_iff.mp alike] at before
    exact List.lt_irrefl _ before
  · constructor
    · rintro ⟨listed, member, same⟩
      obtain ⟨argument, given, found⟩ := mem_of_mem_collected member
      exact ⟨argument, given, (standsFor_iff tidy).mpr ⟨listed, found, same⟩⟩
    · rintro ⟨argument, given, stands⟩
      obtain ⟨found, member, same⟩ := (standsFor_iff tidy).mp stands
      obtain ⟨listed, kept, sameListed⟩ := exists_mem_collected given member
      exact ⟨listed, kept, Path.same_trans sameListed same⟩
  · refine collected_congr tidy fun path => ⟨?_, ?_⟩
    · exact fun ⟨argument, given, stands⟩ => ⟨argument, fewer given, stands⟩
    · exact fun ⟨argument, given, stands⟩ => ⟨argument, others given, stands⟩
  · refine collected_congr tidy fun path => ⟨?_, ?_⟩
    · rintro ⟨argument, given, stands⟩
      rcases List.mem_append.mp given with outer | within
      · exact ⟨argument, outer, stands⟩
      · obtain ⟨leads, folder, outer, isFolder, names, behind⟩ := below argument within
        exact ⟨folder, outer, .of_below isFolder leads behind stands⟩
    · exact fun ⟨argument, given, stands⟩ => ⟨argument, List.mem_append_left inner given, stands⟩

/-- Surroundings with a folder in a folder, and a file whose name begins like the outer one. -/
def nestedFolders : Surroundings :=
  { (default : Surroundings) with
    disk :=
      { items := [(["a"], .folder), (["a", "b.py"], .file .empty), (["a", "c"], .folder),
          (["a", "c", "d.py"], .file .empty), (["a-b.py"], .file .empty)]
        room := none } }

/-- The file in the inner folder is collected with the outer one, and giving the inner folder too, with
slashes to spare, makes no difference. -/
theorem collectFiles_nestedFolders :
    nestedFolders.disk.Tidy ∧
      (∃ listed ∈ collected nestedFolders [⟨"a-b.py"⟩, ⟨"a"⟩, ⟨"none"⟩],
        listed.same ⟨"a/c/d.py"⟩ = true) ∧
      (collected nestedFolders [⟨"a-b.py"⟩, ⟨"a"⟩, ⟨"none"⟩, ⟨"a//c/"⟩]).map Path.components =
        (collected nestedFolders [⟨"a-b.py"⟩, ⟨"a"⟩, ⟨"none"⟩]).map Path.components := by
  have proper : ∀ entry ∈ nestedFolders.disk.items, ∀ name ∈ entry.1,
      name.toList ≠ [] ∧ '/' ∉ name.toList ∧ name.toList ≠ ['.'] ∧ name.toList ≠ ['.', '.'] := by
    decide
  have tidy : nestedFolders.disk.Tidy :=
    ⟨by decide, by decide, fun entry member name inside =>
      have ⟨some', plain, here, parent⟩ := proper entry member name inside
      ⟨some', plain, here, parent⟩⟩
  obtain ⟨-, -, exact', -, nested⟩ :=
    collectFiles_union nestedFolders tidy [⟨"a-b.py"⟩, ⟨"a"⟩, ⟨"none"⟩]
  have inner : StandsFor nestedFolders ⟨"a"⟩ ⟨"a/c/d.py"⟩ :=
    @StandsFor.below nestedFolders ⟨"a"⟩ ⟨"a/c/d.py"⟩ ["a"] ["c", "d.py"] .empty (by rfl) (by rfl)
      (by rfl) (by decide)
  refine ⟨tidy, (exact' ⟨"a/c/d.py"⟩).mpr ⟨⟨"a"⟩, by decide, inner⟩, ?_⟩
  refine nested [⟨"a//c/"⟩] fun path member => ?_
  rw [List.mem_singleton.mp member]
  exact ⟨by decide, ⟨"a"⟩, by decide, by decide, ["c"], by decide⟩

end SnippetAudit
