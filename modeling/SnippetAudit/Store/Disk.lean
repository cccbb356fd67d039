import SnippetAudit.Path
import SnippetAudit.Store.Fault

/-!
Disks: a tree of folders and files with bytes in them, and how paths lead through it. A disk may
have a limited number of bytes left; what no longer fits is not written.
-/

namespace SnippetAudit

open Text

/-- What a name stands for on a disk. -/
inductive Item where
  | folder
  | file (bytes : ByteArray)
deriving Inhabited

def Item.isFolder : Item → Bool
  | folder => true
  | file _ => false

/-- A place on a disk: the names that lead to it from the root. -/
abbrev Location := List String

/-- A disk: what is at each place but the root, which is a folder, and how many bytes are left. -/
structure Disk where
  items : List (Location × Item)
  room : Option Nat
deriving Inhabited

namespace Disk

def get? (disk : Disk) (location : Location) : Option Item :=
  if location.isEmpty then some .folder else disk.items.lookup location

/-- Puts something at a place, instead of what was there. -/
def put (location : Location) (item : Item) (disk : Disk) : Disk :=
  { disk with items := disk.items.filter (·.1 != location) ++ [(location, item)] }

def holdsFolder (disk : Disk) (location : Location) : Bool :=
  (disk.get? location).any Item.isFolder

def maxName : Nat := 255

def maxPath : Nat := 4095

/-- Goes along the pieces of a path. Each starts from a folder; an empty one and a dot stay there,
two dots go up, and the last one may lead to nothing. -/
def walk (disk : Disk) (origin : Location) : List (List Char) → Except Fault Location
  | [] => .ok origin
  | slice :: rest =>
    match disk.get? origin with
    | none => .error .missing
    | some (.file _) => .error .notFolder
    | some .folder =>
      if slice = [] ∨ slice = ['.'] then walk disk origin rest
      else if slice = ['.', '.'] then walk disk origin.dropLast rest
      else
        let name := String.ofList slice
        if maxName < name.utf8ByteSize then .error .nameTooLong
        else walk disk (origin ++ [name]) rest

def start (folder : Location) (path : Path) : Location :=
  if path.isAbsolute then [] else folder

def refusal? (path : Path) : Option Fault :=
  if path.text.toList.any (·.toNat == 0) then some .nulInName
  else if path.text.isEmpty then some .missing
  else if maxPath < path.text.utf8ByteSize then some .nameTooLong
  else none

/-- The place that a path leads to from a folder, whether there is something or not. -/
def locate (disk : Disk) (folder : Location) (path : Path) : Except Fault Location :=
  match refusal? path with
  | some fault => .error fault
  | none => disk.walk (start folder path) path.slices

def find (disk : Disk) (folder : Location) (path : Path) : Except Fault Item :=
  (disk.locate folder path).bind fun location =>
    match disk.get? location with
    | none => .error .missing
    | some item => .ok item

def read (disk : Disk) (folder : Location) (path : Path) : Except Fault ByteArray :=
  (disk.find folder path).bind fun item =>
    match item with
    | .folder => .error .isFolder
    | .file bytes => .ok bytes

def leads (disk : Disk) (folder : Location) (path : Path) : Bool :=
  (disk.find folder path).isOk

def leadsToFolder (disk : Disk) (folder : Location) (path : Path) : Bool :=
  match disk.find folder path with
  | .ok item => item.isFolder
  | .error _ => false

/-- The pieces of a path without the empty ones at its end. -/
def trimmedSlices (path : Path) : List (List Char) :=
  (path.slices.reverse.dropWhile List.isEmpty).reverse

/-- The place at which a path names something new: the pieces before its last lead to a folder, and
its last piece is a name. Slashes behind the name are passed over. None if the last piece is no
name. -/
def locateNew (disk : Disk) (folder : Location) (path : Path) : Except Fault (Option Location) :=
  match refusal? path with
  | some fault => .error fault
  | none =>
    let slices := trimmedSlices path
    (disk.walk (start folder path) slices.dropLast).bind fun parent =>
      match disk.get? parent with
      | none => .error .missing
      | some (.file _) => .error .notFolder
      | some .folder =>
        let name := slices.getLast?.getD []
        if name = [] ∨ name = ['.'] ∨ name = ['.', '.'] then .ok none
        else if maxName < (String.ofList name).utf8ByteSize then .error .nameTooLong
        else .ok (some (parent ++ [String.ofList name]))

def makeFolder (disk : Disk) (folder : Location) (path : Path) : Except Fault Disk :=
  (disk.locateNew folder path).bind fun location? =>
    match location? with
    | none => .error .exists
    | some location =>
      if (disk.get? location).isSome then .error .exists else .ok (disk.put location .folder)

/-- The place of the file that a path leads to, for writing: there is a file or nothing, and the
path does not end in a slash. -/
def locateFile (disk : Disk) (folder : Location) (path : Path) : Except Fault Location :=
  (disk.locateNew folder path).bind fun location? =>
    match location? with
    | none => .error .isFolder
    | some location =>
      if path.text.toList.getLast? = some '/' || disk.holdsFolder location then .error .isFolder
      else .ok location

/-- Makes a file without bytes, or empties the one that is there. -/
def create (disk : Disk) (folder : Location) (path : Path) : Except Fault Disk :=
  (disk.locateFile folder path).map fun location => disk.put location (.file .empty)

/-- Makes a file without bytes where there is none. -/
def touch (disk : Disk) (folder : Location) (path : Path) : Except Fault Disk :=
  (disk.locateFile folder path).map fun location =>
    if (disk.get? location).isSome then disk else disk.put location (.file .empty)

def fitting (disk : Disk) (bytes : ByteArray) : ByteArray :=
  match disk.room with
  | none => bytes
  | some room => bytes.extract 0 room

/-- Adds bytes at the end of the file that a path leads to, as far as there is room: the disk
afterwards, and the fault if not all of them fitted. -/
def append (disk : Disk) (folder : Location) (path : Path) (bytes : ByteArray) :
    Disk × Option Fault :=
  match disk.locateFile folder path with
  | .error fault => (disk, some fault)
  | .ok location =>
    match disk.get? location with
    | some (.file old) =>
      let added := disk.fitting bytes
      let room := disk.room.map (· - added.size)
      ({ disk.put location (.file (old ++ added)) with room },
        if added.size < bytes.size then some .full else none)
    | _ => (disk, some .missing)

/-- The files anywhere below a place, by the names that lead to them from there. -/
def filesBelow (disk : Disk) (location : Location) : List Location :=
  disk.items.filterMap fun (place, item) =>
    if location.isPrefixOf place && !item.isFolder then some (place.drop location.length) else none

/-- The paths of the files anywhere below a folder, starting with its path. -/
def pathsBelow (disk : Disk) (folder : Location) (path : Path) : List Path :=
  match disk.locate folder path with
  | .error _ => []
  | .ok location =>
    (disk.filesBelow location).map fun names => path.join ⟨"/".intercalate names⟩

end Disk

end SnippetAudit
