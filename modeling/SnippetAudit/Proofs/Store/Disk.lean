import SnippetAudit.Proofs.Text.Lines
import SnippetAudit.Store.Disk

/-!
Where paths lead. A path names the same place on every disk on which it leads anywhere, and a file
put at that place is what the path leads to.
-/

namespace SnippetAudit.Disk

open Text

variable {disk later : Disk} {folder location other origin : Location} {item : Item} {path : Path}
  {slices rest : List (List Char)}

/-- The place that pieces of a path name, whatever is on the disk. -/
def goAlong (origin : Location) : List (List Char) → Location
  | [] => origin
  | slice :: rest =>
    if slice = [] ∨ slice = ['.'] then goAlong origin rest
    else if slice = ['.', '.'] then goAlong origin.dropLast rest
    else goAlong (origin ++ [String.ofList slice]) rest

/-- The place that a path names from a folder, whatever is on the disk. -/
def aim (folder : Location) (path : Path) : Location :=
  goAlong (start folder path) path.slices

theorem lookup_filter_ne {items : List (Location × Item)} (different : other ≠ location) :
    (items.filter (·.1 != location)).lookup other = items.lookup other := by
  induction items with
  | nil => rfl
  | cons pair items ih =>
    rw [List.filter_cons]
    split
    · rw [List.lookup_cons, List.lookup_cons, ih]
    · rename_i same
      have here : pair.1 = location := by simpa using same
      rw [List.lookup_cons, here, beq_false_of_ne different, ih]

theorem lookup_filter_self (items : List (Location × Item)) :
    (items.filter (·.1 != location)).lookup location = none := by
  rw [List.lookup_eq_none_iff]
  intro pair member
  have different : (pair.1 != location) = true := (List.mem_filter.mp member).2
  rw [bne_comm] at different
  exact different

theorem get?_put_self (named : location ≠ []) :
    (disk.put location item).get? location = some item := by
  have full : location.isEmpty = false := by
    cases location with
    | nil => exact absurd rfl named
    | cons name location => rfl
  rw [get?, full, put]
  simp only [List.lookup_append, lookup_filter_self, List.lookup_cons, BEq.rfl, Option.none_or]
  rfl

theorem get?_put_of_ne (different : other ≠ location) :
    (disk.put location item).get? other = disk.get? other := by
  have last : [(location, item)].lookup other = none := by
    rw [List.lookup_cons, beq_false_of_ne different]
    rfl
  simp only [get?, put, List.lookup_append, lookup_filter_ne different, last, Option.or_none]

theorem eq_goAlong_of_walk (found : disk.walk origin slices = .ok location) :
    location = goAlong origin slices := by
  induction slices generalizing origin with
  | nil => cases found; rfl
  | cons slice rest ih =>
    rw [walk] at found
    rw [goAlong]
    split at found
    · cases found
    · cases found
    · split at found
      · rw [if_pos ‹_›]
        exact ih found
      · rw [if_neg ‹_›]
        split at found
        · rw [if_pos ‹_›]
          exact ih found
        · rw [if_neg ‹_›]
          dsimp only at found
          split at found
          · cases found
          · exact ih found

/-- Every folder of a disk is a folder of another one. -/
def KeepsFolders (disk later : Disk) : Prop :=
  ∀ location, disk.get? location = some .folder → later.get? location = some .folder

theorem keepsFolders_put (free : disk.holdsFolder location = false) :
    disk.KeepsFolders (disk.put location item) := by
  intro other here
  have different : other ≠ location := by
    rintro rfl
    rw [holdsFolder, here] at free
    cases free
  rw [get?_put_of_ne different, here]

/-- A way leads on over folders only, so it leads on where they are all kept. -/
theorem walk_of_keepsFolders (keeps : disk.KeepsFolders later)
    (found : disk.walk origin slices = .ok location) : later.walk origin slices = .ok location := by
  induction slices generalizing origin with
  | nil => exact found
  | cons slice rest ih =>
    rw [walk] at found ⊢
    split at found
    · cases found
    · cases found
    · rename_i here
      rw [keeps origin here]
      dsimp only at found ⊢
      split at found
      · rw [if_pos ‹_›]
        exact ih found
      · rw [if_neg ‹_›]
        split at found
        · rw [if_pos ‹_›]
          exact ih found
        · rw [if_neg ‹_›]
          split at found
          · cases found
          · rw [if_neg ‹_›]
            exact ih found

theorem walk_append (disk : Disk) (origin : Location) (slices rest : List (List Char)) :
    disk.walk origin (slices ++ rest) =
      (disk.walk origin slices).bind fun between => disk.walk between rest := by
  induction slices generalizing origin with
  | nil => rfl
  | cons slice slices ih =>
    rw [List.cons_append, walk, walk]
    split
    · rfl
    · rfl
    · split
      · exact ih origin
      · split
        · exact ih origin.dropLast
        · dsimp only
          split
          · rfl
          · exact ih _

/-- A text that does not end with a separator has a last piece with something in it. -/
theorem getLast?_pieces {separator : Char} {text : List Char} (some' : text ≠ [])
    (open' : text.getLast? ≠ some separator) :
    ∃ front last, pieces separator text = front ++ [last] ∧ last ≠ [] := by
  induction text with
  | nil => exact absurd rfl some'
  | cons c text ih =>
    cases text with
    | nil =>
      have different : c ≠ separator := fun same => open' (by rw [same]; rfl)
      exact ⟨[], [c], by rw [pieces_cons, if_neg different]; rfl, List.cons_ne_nil c []⟩
    | cons d text =>
      obtain ⟨front, last, cut, full⟩ := ih (List.cons_ne_nil d text) (by simpa using open')
      rw [pieces_cons, cut]
      by_cases same : c = separator
      · exact ⟨[] :: front, last, by rw [if_pos same]; rfl, full⟩
      · rw [if_neg same]
        cases front with
        | nil => exact ⟨[], c :: last, rfl, List.cons_ne_nil c last⟩
        | cons first front => exact ⟨(c :: first) :: front, last, rfl, full⟩

/-- A file can be written under a path: the pieces before its last one lead to a folder, its last
piece is a name, and no folder has that name. -/
structure Opens (disk : Disk) (folder : Location) (path : Path) (location : Location) : Prop where
  sound : refusal? path = none
  open' : path.text.toList.getLast? ≠ some '/'
  free : disk.holdsFolder location = false
  way : ∃ front name parent, path.slices = front ++ [name] ∧
    ¬(name = [] ∨ name = ['.'] ∨ name = ['.', '.']) ∧
    ¬maxName < (String.ofList name).utf8ByteSize ∧
    disk.walk (start folder path) front = .ok parent ∧ disk.get? parent = some .folder ∧
    location = parent ++ [String.ofList name]

theorem exists_slices (sound : refusal? path = none)
    (open' : path.text.toList.getLast? ≠ some '/') :
    (∃ front name, path.slices = front ++ [name]) ∧ trimmedSlices path = path.slices := by
  have full : path.text.toList ≠ [] := by
    intro empty
    have blank : path.text = "" := String.toList_eq_nil_iff.mp empty
    rw [refusal?, blank] at sound
    cases sound
  obtain ⟨front, name, cut, some'⟩ := getLast?_pieces full open'
  refine ⟨⟨front, name, cut⟩, ?_⟩
  have whole : path.slices = front ++ [name] := cut
  have more : name.isEmpty = false := by simpa using some'
  rw [trimmedSlices, whole, List.reverse_append, List.reverse_singleton, List.singleton_append,
    List.dropWhile_cons_of_neg (by simp [more])]
  simp

theorem exists_of_bind_eq_ok {α β : Type} {found : Except Fault α} {next : α → Except Fault β}
    {result : β} (done : found.bind next = .ok result) :
    ∃ given, found = .ok given ∧ next given = .ok result := by
  cases found with
  | error fault => cases done
  | ok given => exact ⟨given, rfl, done⟩

theorem exists_of_map_eq_ok {α β : Type} {found : Except Fault α} {next : α → β} {result : β}
    (done : found.map next = .ok result) : ∃ given, found = .ok given ∧ next given = result := by
  cases found with
  | error fault => cases done
  | ok given => exact ⟨given, rfl, Except.ok.inj done⟩

/-- A new place is in the folder that the pieces before the last one lead to, and the last piece is its
name there. -/
theorem exists_of_locateNew (found : disk.locateNew folder path = .ok (some location)) :
    refusal? path = none ∧ ∃ name parent, (trimmedSlices path).getLast?.getD [] = name ∧
      ¬(name = [] ∨ name = ['.'] ∨ name = ['.', '.']) ∧
      ¬maxName < (String.ofList name).utf8ByteSize ∧
      disk.walk (start folder path) (trimmedSlices path).dropLast = .ok parent ∧
      disk.get? parent = some .folder ∧ location = parent ++ [String.ofList name] := by
  rw [locateNew] at found
  split at found
  · cases found
  · rename_i sound
    obtain ⟨parent, walked, there⟩ := exists_of_bind_eq_ok found
    split at there
    · cases there
    · cases there
    · rename_i here
      dsimp only at there
      split at there
      · cases there
      · rename_i proper
        split at there
        · cases there
        · rename_i short
          cases there
          exact ⟨sound, _, parent, rfl, proper, short, walked, here, rfl⟩

theorem exists_of_locateFile (found : disk.locateFile folder path = .ok location) :
    disk.locateNew folder path = .ok (some location) ∧
      path.text.toList.getLast? ≠ some '/' ∧ disk.holdsFolder location = false := by
  rw [locateFile] at found
  obtain ⟨location?, new, there⟩ := exists_of_bind_eq_ok found
  split at there
  · cases there
  · split at there
    · cases there
    · rename_i free
      cases there
      rw [Bool.not_eq_true, Bool.or_eq_false_iff, decide_eq_false_iff_not] at free
      exact ⟨new, free⟩

theorem opens_of_locateFile (found : disk.locateFile folder path = .ok location) :
    disk.Opens folder path location := by
  obtain ⟨new, open', free⟩ := exists_of_locateFile found
  obtain ⟨sound, name, parent, last, proper, short, walked, here, rfl⟩ := exists_of_locateNew new
  obtain ⟨⟨front, piece, cut⟩, trimmed⟩ := exists_slices sound open'
  rw [trimmed, cut, List.getLast?_concat, Option.getD_some] at last
  rw [trimmed, cut, List.dropLast_concat] at walked
  subst last
  exact ⟨sound, open', free, front, piece, parent, cut, proper, short, walked, here, rfl⟩

theorem locateFile_of_opens (opens : disk.Opens folder path location) :
    disk.locateFile folder path = .ok location := by
  obtain ⟨sound, open', free, front, name, parent, cut, proper, short, walked, here, rfl⟩ := opens
  have trimmed := (exists_slices sound open').2
  rw [locateFile, locateNew, sound]
  simp only [trimmed, cut, List.dropLast_concat, List.getLast?_concat, walked, Except.bind, here,
    Option.getD_some, if_neg proper, if_neg short, open', free, decide_false, Bool.or_self]
  rfl

namespace Opens

theorem ne_nil (opens : disk.Opens folder path location) : location ≠ [] := by
  obtain ⟨_, _, _, _, name, parent, _, _, _, _, _, rfl⟩ := opens
  exact List.append_ne_nil_of_right_ne_nil parent (List.cons_ne_nil _ [])

theorem locate (opens : disk.Opens folder path location) :
    disk.locate folder path = .ok location := by
  obtain ⟨sound, _, _, front, name, parent, cut, proper, short, walked, here, rfl⟩ := opens
  have plain : ¬(name = [] ∨ name = ['.']) := fun same => proper (same.imp_right Or.inl)
  have climbs : name ≠ ['.', '.'] := fun same => proper (Or.inr (Or.inr same))
  rw [Disk.locate, sound, cut]
  dsimp only
  rw [walk_append, walked]
  simp only [Except.bind, walk, here, if_neg plain, if_neg climbs, if_neg short]

theorem eq_aim (opens : disk.Opens folder path location) : location = aim folder path := by
  have found := opens.locate
  rw [Disk.locate, opens.sound] at found
  exact eq_goAlong_of_walk found

theorem mono (opens : disk.Opens folder path location) (keeps : disk.KeepsFolders later)
    (free : later.holdsFolder location = false) : later.Opens folder path location := by
  obtain ⟨sound, open', _, front, name, parent, cut, proper, short, walked, here, same⟩ := opens
  exact ⟨sound, open', free, front, name, parent, cut, proper, short,
    walk_of_keepsFolders keeps walked, keeps parent here, same⟩

theorem read (opens : disk.Opens folder path location) {bytes : ByteArray}
    (file : disk.get? location = some (.file bytes)) : disk.read folder path = .ok bytes := by
  simp only [Disk.read, find, opens.locate, Except.bind, file]

theorem read_of_get?_eq_none (opens : disk.Opens folder path location)
    (nothing : disk.get? location = none) : disk.read folder path = .error .missing := by
  simp only [Disk.read, find, opens.locate, Except.bind, nothing]

theorem put_file (opens : disk.Opens folder path location) (bytes : ByteArray) :
    (disk.put location (.file bytes)).Opens folder path location := by
  refine opens.mono (keepsFolders_put opens.free) ?_
  rw [holdsFolder, get?_put_self opens.ne_nil]
  rfl

end Opens

theorem exists_of_makeFolder (made : disk.makeFolder folder path = .ok later) :
    ∃ location, disk.locateNew folder path = .ok (some location) ∧
      disk.get? location = none ∧ later = disk.put location .folder := by
  rw [makeFolder] at made
  obtain ⟨location?, new, there⟩ := exists_of_bind_eq_ok made
  split at there
  · cases there
  · rename_i location
    split at there
    · cases there
    · rename_i free
      cases there
      exact ⟨location, new, by simpa using free, rfl⟩

def contents (disk : Disk) (location : Location) : ByteArray :=
  match disk.get? location with
  | some (.file bytes) => bytes
  | _ => .empty

/-- The path of a file leads to the file after it has been made sure that there is one, and nothing
is lost of what was in it. -/
theorem opens_of_touch (touched : disk.touch folder path = .ok later) :
    later.Opens folder path (aim folder path) ∧
      later.get? (aim folder path) = some (.file (disk.contents (aim folder path))) ∧
      later.room = disk.room := by
  rw [touch] at touched
  obtain ⟨location, found, result⟩ := exists_of_map_eq_ok touched
  have opens := opens_of_locateFile found
  have same := opens.eq_aim
  subst same
  cases there : disk.get? (aim folder path) with
  | none =>
    simp only [there, Option.isSome_none, Bool.false_eq_true, if_false] at result
    subst result
    exact ⟨opens.put_file .empty, by rw [get?_put_self opens.ne_nil, contents, there], rfl⟩
  | some item =>
    simp only [there, Option.isSome_some, if_true] at result
    subst result
    cases item with
    | folder =>
      have free := opens.free
      rw [holdsFolder, there] at free
      cases free
    | file bytes => exact ⟨opens, by rw [there, contents, there], rfl⟩

/-- Bytes are added at the end of a file as far as there is room for them. -/
theorem append_of_opens (opens : disk.Opens folder path location) {old : ByteArray}
    (file : disk.get? location = some (.file old)) (bytes : ByteArray) :
    ∃ later, disk.append folder path bytes =
        (later, if (disk.fitting bytes).size < bytes.size then some .full else none) ∧
      later.Opens folder path location ∧
      later.get? location = some (.file (old ++ disk.fitting bytes)) ∧
      later.room = disk.room.map (· - (disk.fitting bytes).size) := by
  have added := opens.put_file (old ++ disk.fitting bytes)
  have limited : Opens { disk.put location (.file (old ++ disk.fitting bytes)) with
      room := disk.room.map (· - (disk.fitting bytes).size) } folder path location :=
    added.mono (fun _ here => here) added.free
  refine ⟨_, ?_, limited, ?_, rfl⟩
  · rw [append, locateFile_of_opens opens]
    simp only [file]
  · exact get?_put_self opens.ne_nil

theorem exists_touch (opens : disk.Opens folder path location) :
    ∃ later, disk.touch folder path = .ok later := by
  rw [touch, locateFile_of_opens opens]
  exact ⟨_, rfl⟩

theorem fitting_eq_self {bytes : ByteArray} (whole : ¬(disk.fitting bytes).size < bytes.size) :
    disk.fitting bytes = bytes := by
  unfold fitting at whole ⊢
  split
  · rfl
  · rename_i room limit
    rw [limit] at whole
    simp only [ByteArray.size_extract] at whole
    have enough : max room bytes.size = room := by omega
    have full := ByteArray.extract_zero_max_size (a := bytes) (i := room)
    rwa [enough] at full

end SnippetAudit.Disk
