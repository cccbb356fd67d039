import SnippetAudit.Calendar.Instant
import SnippetAudit.Log
import SnippetAudit.Store.Disk

/-!
Hosts: what a command may ask of its surroundings. Commands are written for any host; on a recorded
one, all that they find and leave is a value.
-/

namespace SnippetAudit

/-- The requests a command may make. -/
class Host (m : Type → Type) where
  /-- The folder that relative paths start from. -/
  folder : m (Except Fault Path)
  /-- The bytes of a file. -/
  read : Path → m (Except Fault ByteArray)
  /-- Makes a file without bytes, or empties the one that is there. -/
  create : Path → m (Except Fault Unit)
  /-- Makes a file without bytes where there is none. -/
  touch : Path → m (Except Fault Unit)
  /-- Adds bytes at the end of a file. -/
  append : Path → ByteArray → m (Except Fault Unit)
  /-- Makes one folder. -/
  makeFolder : Path → m (Except Fault Unit)
  /-- A path leads to something. -/
  leads : Path → m Bool
  /-- A path leads to a folder. -/
  leadsToFolder : Path → m Bool
  /-- The paths of the files anywhere below a folder, in any order. -/
  pathsBelow : Path → m (List Path)
  /-- All bytes of the standard input. -/
  input : m ByteArray
  /-- Writes to the standard output. -/
  print : String → m Unit
  /-- Gives a notice, if notices like it are shown. -/
  note : Notice → m Unit
  /-- Settles which notices are shown from now on. -/
  listen : NoticeFilter → m Unit
  /-- The present instant. -/
  now : m Instant

/-- Surroundings as a value: the disk and the current folder on it, the standard input, what has
been written to the standard output so far, which notices are shown and which have been, and the
present instant. -/
structure Surroundings where
  disk : Disk
  folder : Location
  input : ByteArray
  output : String
  filter : NoticeFilter
  notices : Array Notice
  now : Instant
deriving Inhabited

namespace Surroundings

def change (act : Disk → Location → Except Fault Disk) : StateM Surroundings (Except Fault Unit) :=
  modifyGet fun s =>
    match act s.disk s.folder with
    | .error fault => (.error fault, s)
    | .ok disk => (.ok (), { s with disk })

def append (path : Path) (bytes : ByteArray) : StateM Surroundings (Except Fault Unit) :=
  modifyGet fun s =>
    let (disk, fault?) := s.disk.append s.folder path bytes
    (match fault? with
      | some fault => .error fault
      | none => .ok (), { s with disk })

def pathOf (location : Location) : Path :=
  ⟨"/" ++ "/".intercalate location⟩

instance : Host (StateM Surroundings) where
  folder := do return .ok (pathOf (← get).folder)
  read path := do
    let s ← get
    return s.disk.read s.folder path
  create path := change fun disk folder => disk.create folder path
  touch path := change fun disk folder => disk.touch folder path
  append := append
  makeFolder path := change fun disk folder => disk.makeFolder folder path
  leads path := do
    let s ← get
    return s.disk.leads s.folder path
  leadsToFolder path := do
    let s ← get
    return s.disk.leadsToFolder s.folder path
  pathsBelow path := do
    let s ← get
    return s.disk.pathsBelow s.folder path
  input := do return (← get).input
  print text := modify fun s => { s with output := s.output ++ text }
  note notice := modify fun s =>
    if s.filter.shows notice then { s with notices := s.notices.push notice } else s
  listen filter := modify fun s => { s with filter }
  now := do return (← get).now

end Surroundings

end SnippetAudit
