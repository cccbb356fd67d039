import Std.Time.DateTime.Timestamp
import SnippetAudit.Program

/-!
The program on a real host.
-/

namespace SnippetAudit.Console

/-- What runs on a real host, which remembers which notices it shows. -/
abbrev Run := ReaderT (IO.Ref NoticeFilter) IO

/-- The fault with a number and words of the host, which may give the number with a minus sign. -/
def faultOf (code : UInt32) (text : String) : Fault :=
  .ofNumber (if code.toNat < Nat.pow 2 31 then code.toNat else Nat.pow 2 32 - code.toNat) text

/-- The fault that an error of the host stands for. -/
def faultOfError : IO.Error → Fault
  | .alreadyExists _ code text => faultOf code text
  | .otherError code text => faultOf code text
  | .resourceBusy code text => faultOf code text
  | .resourceVanished code text => faultOf code text
  | .unsupportedOperation code text => faultOf code text
  | .hardwareFault code text => faultOf code text
  | .unsatisfiedConstraints code text => faultOf code text
  | .illegalOperation code text => faultOf code text
  | .protocolError code text => faultOf code text
  | .timeExpired code text => faultOf code text
  | .interrupted _ code text => faultOf code text
  | .noFileOrDirectory _ code text => faultOf code text
  | .invalidArgument _ code text => faultOf code text
  | .permissionDenied _ code text => faultOf code text
  | .resourceExhausted _ code text => faultOf code text
  | .inappropriateType _ code text => faultOf code text
  | .noSuchThing _ code text => faultOf code text
  | .unexpectedEof => .other 0 "unexpected end of file"
  | .userError text => .other 0 text

/-- Makes a request, and gives the fault if there is one. -/
def ask (request : IO α) : Run (Except Fault α) := do
  match ← request.toBaseIO with
  | .ok value => return .ok value
  | .error error => return .error (faultOfError error)

def place (path : Path) :=
  (IO.FS.DirEntry.mk path.text "").root

/-- Makes a request about a path, unless no path like it leads anywhere. -/
def askAbout (path : Path) (request : IO α) : Run (Except Fault α) :=
  match Disk.refusal? path with
  | some fault => return .error fault
  | none => ask request

/-- All bytes that are left in a stream. -/
partial def readAll (stream : IO.FS.Stream) (found : ByteArray) : IO ByteArray := do
  let more ← stream.read 65536
  if more.isEmpty then return found else readAll stream (found ++ more)

def instantOf (clock : Std.Time.Timestamp) : Instant :=
  let nanos := clock.toNanosecondsSinceUnixEpoch.val
  ⟨nanos / Instant.perSecond, (nanos % Instant.perSecond).toNat⟩

def now : Run Instant :=
  return instantOf (← Std.Time.Timestamp.now)

/-- An instant as it stands in front of a notice, to the millionth of a second. -/
def stamp (instant : Instant) : String :=
  Instant.dateText instant.date ++ "T" ++ instant.clockText ++
    "." ++ padded 6 (instant.nanos / 1000) ++ "Z"

/-- Gives a notice on the standard error, if notices like it are shown. -/
def note (notice : Notice) : Run Unit := do
  let filter ← (← read).get
  if filter.shows notice then
    IO.eprintln (stamp (← now) ++ " " ++ padLeft 5 notice.level.name.toUpper ++ " " ++
      notice.scope ++ notice.text)

/-- The paths of the files anywhere below a folder. Of links none is followed, and a folder that
cannot be read has no files. -/
partial def pathsBelow (path : Path) : Run (List Path) := do
  match ← askAbout path (place path).readDir with
  | .error fault =>
    note (.plain .warn ("Skipping unreadable entry: " ++ path.text ++ ": " ++ fault.message))
    return []
  | .ok entries =>
    let found ← entries.toList.mapM fun entry => do
      let below := path.join ⟨entry.fileName⟩
      match ← ask entry.path.symlinkMetadata with
      | .error _ => return []
      | .ok metadata =>
        match metadata.type with
        | .dir => pathsBelow below
        | .file => return [below]
        | _ => return []
    return found.flatten

def openFile (path : Path) (mode : IO.FS.Mode) : Run (Except Fault Unit) :=
  askAbout path do discard <| IO.FS.Handle.mk (place path) mode

instance : Host Run where
  folder := do return (← ask IO.currentDir).map fun folder => ⟨folder.toString⟩
  read path := askAbout path (IO.FS.readBinFile (place path))
  create path := openFile path .write
  touch path := openFile path .append
  append path bytes := askAbout path do
    let file ← IO.FS.Handle.mk (place path) .append
    file.write bytes
    file.flush
  makeFolder path := askAbout path (IO.FS.createDir (place path))
  leads path := return (← askAbout path (place path).metadata).isOk
  leadsToFolder path :=
    return ((← askAbout path (place path).metadata).toOption.any (·.type == .dir))
  pathsBelow := pathsBelow
  input := do readAll (← IO.getStdin) .empty
  print text := do
    let output ← IO.getStdout
    output.putStr text
    output.flush
  note := note
  listen filter := do (← read).set filter
  now := now

/-- What the environment says. Colours are forced on, or else used on a terminal, unless they are
unwanted. -/
def environment : IO Environment := do
  let forced := (← IO.getEnv "CLICOLOR_FORCE").any (· != "0")
  let unwanted := (← IO.getEnv "NO_COLOR").isSome
  let usual := (← IO.getEnv "CLICOLOR").all (· != "0")
  let terminal ← (← IO.getStdout).isTty
  return { config := ← IO.getEnv "CODESENSE_CONFIG", log := ← IO.getEnv "CODESENSE_LOG",
           colors := forced || (!unwanted && usual && terminal) }

end SnippetAudit.Console

open SnippetAudit in
/-- Runs the program on the words of a command line. -/
def main (words : List String) : IO UInt32 := do
  let filter ← IO.mkRef (NoticeFilter.upTo .warn)
  let run : Console.Run Ending := runProgram (← Console.environment) words
  let ending ← run.run filter
  match ending with
  | .done => pure ()
  | .failed failure => IO.eprintln ("Error: " ++ failure.message)
  | .unclear problem =>
    if !problem.isWish then
      IO.eprintln ("error: " ++ problem.message ++ "\n\n" ++ CommandLine.helpText)
  return ending.exitCode.toUInt32
