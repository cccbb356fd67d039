import SnippetAudit.Command.Analyze
import SnippetAudit.Proofs.Analysis.Listening
import SnippetAudit.Proofs.Archive.File

/-!
The snippet of a request and its analysis, on a recorded host: reading the one changes nothing, and the
other nothing but the notices.
-/

namespace SnippetAudit

/-- What there is to analyse. -/
inductive Supply where
  | absent
  | unreadable (fault : Fault)
  | text (code : String)

namespace Supply

def ofBytes (bytes : ByteArray) : Supply :=
  match String.fromUTF8? bytes with
  | some code => .text code
  | none => .unreadable .noText

/-- The snippet in a file, or in the standard input. -/
def ofFile (s : Surroundings) (path : Path) : Supply :=
  if path = inputPath then .ofBytes s.input
  else match s.disk.read s.folder path with
    | .error fault => .unreadable fault
    | .ok bytes => .ofBytes bytes

/-- A snippet, or the failure of a command that finds none. -/
def result (contexts : List String) : Supply → Except Failure String
  | absent => .error (.of (.refused .empty))
  | unreadable fault => .error ⟨contexts, .system fault⟩
  | text code => .ok code

end Supply

/-- What a request gives to analyse, with files as they are when it is made. -/
def AnalyzeRequest.supply (request : AnalyzeRequest) (s : Surroundings) : Supply :=
  match request.code, request.input with
  | some code, _ => .text code
  | none, some path => .ofFile s path
  | none, none => .absent

theorem exists_run_readSnippet (path : Path) (s : Surroundings) :
    ∃ contexts, (readSnippet path : Attempt (StateM Surroundings) String).run s =
      ((Supply.ofFile s path).result contexts, s) := by
  rw [readSnippet, Supply.ofFile]
  by_cases standard : path = inputPath
  · have input : (Host.input : StateM Surroundings ByteArray).run s = (s.input, s) := rfl
    refine ⟨["Failed to read snippet from stdin"], ?_⟩
    rw [if_pos standard, if_pos standard, Attempt.run_within, Attempt.run_bind, Attempt.run_sure,
      input, Supply.ofBytes]
    dsimp only
    cases String.fromUTF8? s.input <;> rfl
  · refine ⟨["Failed to read " ++ path.text], ?_⟩
    rw [if_neg standard, if_neg standard, Attempt.run_within, Attempt.run_ask,
      ArchiveFile.run_readText]
    cases s.disk.read s.folder path with
    | error fault => rfl
    | ok bytes =>
      dsimp only
      rw [Supply.ofBytes]
      cases String.fromUTF8? bytes <;> rfl

/-- Reading the snippet of a request changes nothing. -/
theorem AnalyzeRequest.exists_run_snippet (request : AnalyzeRequest) (s : Surroundings) :
    ∃ contexts, (request.snippet : Attempt (StateM Surroundings) String).run s =
      ((request.supply s).result contexts, s) := by
  rw [snippet, supply]
  cases request.code with
  | some code => exact ⟨[], rfl⟩
  | none =>
    cases request.input with
    | some path => exact exists_run_readSnippet path s
    | none => exact ⟨[], rfl⟩

section Notices

variable (settings : Settings) (listener : Listener) (code : String) (s : Surroundings)

/-- An examination that gives a notice of each event comes to what the silent one comes to. -/
theorem exists_notices_examine (notice : Event → Notice) :
    ∃ notices, (examine settings listener (fun event => Host.note (notice event)) code :
      StateM Surroundings (Except Refusal Report)).run s =
        ((analyze settings listener code).map Analysis.report, { s with notices }) := by
  rw [analyze_eq, examine_eq]
  cases sizeRefusal? settings code with
  | some refusal => exact ⟨s.notices, rfl⟩
  | none =>
    obtain ⟨notices, told⟩ := Surroundings.exists_notices_forM notice
      (listener.heard 0 (Analysis.of settings code.toList).events) s
    refine ⟨notices, ?_⟩
    dsimp only
    rw [StateT.run_bind, told]
    cases listener.failure? 0 (Analysis.of settings code.toList).events <;> rfl

theorem exists_notices_analyzeAloud :
    ∃ notices, (analyzeAloud settings listener code :
      StateM Surroundings (Except Refusal Report)).run s =
        ((analyze settings listener code).map Analysis.report, { s with notices }) := by
  obtain ⟨heard, examined⟩ := exists_notices_examine settings listener code s
    fun event => ⟨.debug, some code.utf8ByteSize, event.text⟩
  rw [analyzeAloud, StateT.run_bind, examined]
  generalize (analyze settings listener code).map Analysis.report = result
  cases result with
  | ok report => exact Surroundings.exists_notices_before _ _ { s with notices := heard }
  | error refusal =>
    cases refusal with
    | failed reason => exact Surroundings.exists_notices_before _ _ { s with notices := heard }
    | empty | tooLarge => exact ⟨heard, rfl⟩

end Notices

end SnippetAudit
