import SnippetAudit.Proofs.Archive.Gain
import SnippetAudit.Proofs.Command.Output
import SnippetAudit.Proofs.Command.Snippet

/-!
What a request for an analysis leaves, however it ends: nothing is written before there is a report,
nothing is archived before the report is shown, and the archive has no say in what comes of the
request.
-/

namespace SnippetAudit.AnalyzeRequest

variable {settings : Settings} {listener : Listener} {request : AnalyzeRequest}
  {s later : Surroundings}

/-- A request that comes to no report, and the exit code for that: two if there is no snippet, or one
that is empty or too large, and one if it cannot be read or its analysis fails. -/
inductive Rejected (listener : Listener) (settings : Settings) (request : AnalyzeRequest)
    (s : Surroundings) : Nat → Prop
  | absent (nothing : request.supply s = .absent) : Rejected listener settings request s 2
  | unreadable {fault : Fault} (found : request.supply s = .unreadable fault) :
    Rejected listener settings request s 1
  | empty (given : request.supply s = .text "") : Rejected listener settings request s 2
  | tooLarge {code : String} (given : request.supply s = .text code)
    (exceeds : settings.limits.maxInputBytes < code.utf8ByteSize) :
    Rejected listener settings request s 2
  | failed {code reason : String} (given : request.supply s = .text code)
    (breaks : analyze settings listener code = .error (.failed reason)) :
    Rejected listener settings request s 1

/-- What a request does before it archives anything: it analyses its snippet and shows the report. -/
def showReport {m : Type → Type} [Monad m] [Host m] (listener : Listener) (settings : Settings)
    (request : AnalyzeRequest) : Attempt m (String × Report) := do
  let code ← request.snippet
  match ← Attempt.sure (analyzeAloud settings listener code) with
  | .error refusal => throw refusal.failure
  | .ok report =>
    request.target.show "report" (.report report)
    return (code, report)

/-- What a request leaves that has shown its report: the archive is added to if that is wanted. -/
def archiving (settings : Settings) (request : AnalyzeRequest) (code : String) (report : Report)
    (s : Surroundings) : Surroundings :=
  if settings.archive.enabled && request.archived then
    ((ArchiveFile.tryStore ⟨settings.archive.path⟩ code report :
      StateM Surroundings Unit).run s).2
  else s

theorem changed_archiving (settings : Settings) (request : AnalyzeRequest) (code : String)
    (report : Report) (s : Surroundings) :
    Changed [⟨settings.archive.path⟩] s (request.archiving settings code report s) := by
  unfold archiving
  split
  · exact ArchiveFile.changes_tryStore _ code report s
  · exact .refl _ s

theorem runWith_eq (listener : Listener) (settings : Settings) (request : AnalyzeRequest) :
    (request.runWith listener settings : Attempt (StateM Surroundings) Report) = (do
      let (code, report) ← request.showReport listener settings
      if settings.archive.enabled && request.archived then
        Attempt.sure (ArchiveFile.tryStore ⟨settings.archive.path⟩ code report)
      return report) := by
  rw [runWith, showReport, bind_assoc]
  refine bind_congr fun code => ?_
  rw [bind_assoc]
  refine bind_congr fun result => ?_
  cases result with
  | error refusal => rfl
  | ok report => rw [bind_assoc]; rfl

/-- Neither where the archive is nor whether it is used matters before it is. -/
theorem showReport_archive (archive : ArchiveSettings) (archived : Bool) :
    (showReport listener { settings with archive } { request with archived } :
      Attempt (StateM Surroundings) (String × Report)) = request.showReport listener settings := by
  rfl

theorem run_runWith (listener : Listener) (settings : Settings) (request : AnalyzeRequest)
    (s : Surroundings) :
    (request.runWith listener settings : Attempt (StateM Surroundings) Report).run s =
      match (request.showReport listener settings : Attempt (StateM Surroundings) _).run s with
      | (.error failure, later) => (.error failure, later)
      | (.ok (code, report), between) =>
        (.ok report, request.archiving settings code report between) := by
  unfold archiving
  rw [runWith_eq, Attempt.run_bind]
  cases (request.showReport listener settings : Attempt (StateM Surroundings) _).run s with
  | mk result between =>
    cases result with
    | error failure => rfl
    | ok shown =>
      dsimp only
      split
      · rfl
      · rfl

/-- What comes of a snippet that can be read hangs on its analysis. -/
theorem exists_run_of_text {code : String} (given : request.supply s = .text code) :
    ∃ notices, (request.showReport listener settings : Attempt (StateM Surroundings) _).run s =
      match analyze settings listener code with
      | .error refusal => (.error refusal.failure, { s with notices })
      | .ok analysis =>
        match (request.target.show "report" (.report analysis.report) :
          Attempt (StateM Surroundings) Unit).run { s with notices } with
        | (.error failure, later) => (.error failure, later)
        | (.ok _, later) => (.ok (code, analysis.report), later) := by
  obtain ⟨contexts, read⟩ := request.exists_run_snippet s
  obtain ⟨notices, ran⟩ := exists_notices_analyzeAloud settings listener code s
  refine ⟨notices, ?_⟩
  rw [showReport, Attempt.run_bind, read, given]
  dsimp only [Supply.result]
  rw [Attempt.run_bind, Attempt.run_sure, ran]
  cases analyze settings listener code with
  | error refusal => rfl
  | ok analysis =>
    dsimp only [Except.map]
    rw [Attempt.run_bind]
    cases (request.target.show "report" (.report analysis.report) :
        Attempt (StateM Surroundings) Unit).run { s with notices } with
    | mk result later => cases result <;> rfl

theorem exists_run_of_refused {code : String} {refusal : Refusal}
    (given : request.supply s = .text code)
    (refused : analyze settings listener code = .error refusal) :
    ∃ notices, (request.showReport listener settings : Attempt (StateM Surroundings) _).run s =
      (.error refusal.failure, { s with notices }) := by
  obtain ⟨notices, ran⟩ := exists_run_of_text given
  rw [refused] at ran
  exact ⟨notices, ran⟩

theorem exists_run_of_analyzed {code : String} {analysis : Analysis}
    (given : request.supply s = .text code)
    (analyzed : analyze settings listener code = .ok analysis) :
    ∃ notices, (request.showReport listener settings : Attempt (StateM Surroundings) _).run s =
      match (request.target.show "report" (.report analysis.report) :
        Attempt (StateM Surroundings) Unit).run { s with notices } with
      | (.error failure, later) => (.error failure, later)
      | (.ok _, later) => (.ok (code, analysis.report), later) := by
  obtain ⟨notices, ran⟩ := exists_run_of_text given
  rw [analyzed] at ran
  exact ⟨notices, ran⟩

/-- A request that is rejected fails with its exit code, and changes nothing but the notices. -/
theorem Rejected.exists_run {exitCode : Nat}
    (rejected : request.Rejected listener settings s exitCode) :
    ∃ failure notices, (request.showReport listener settings :
      Attempt (StateM Surroundings) _).run s = (.error failure, { s with notices }) ∧
        failure.exitCode = exitCode := by
  obtain ⟨contexts, read⟩ := request.exists_run_snippet s
  cases rejected with
  | absent nothing =>
    rw [nothing] at read
    refine ⟨.of (.refused .empty), s.notices, ?_, rfl⟩
    rw [showReport, Attempt.run_bind, read]
    rfl
  | @unreadable fault found =>
    rw [found] at read
    refine ⟨⟨contexts, .system fault⟩, s.notices, ?_, rfl⟩
    rw [showReport, Attempt.run_bind, read]
    rfl
  | empty given =>
    obtain ⟨notices, ran⟩ := exists_run_of_refused given (analyze_eq_empty_iff.mpr rfl)
    exact ⟨_, notices, ran, rfl⟩
  | @tooLarge code given exceeds =>
    have full : code ≠ "" := by
      rintro rfl
      exact absurd exceeds (Nat.not_lt_zero _)
    obtain ⟨notices, ran⟩ :=
      exists_run_of_refused given (analyze_eq_tooLarge_iff.mpr ⟨full, exceeds, rfl, rfl⟩)
    exact ⟨_, notices, ran, rfl⟩
  | failed given breaks =>
    obtain ⟨notices, ran⟩ := exists_run_of_refused given breaks
    exact ⟨_, notices, ran, rfl⟩

/-- A request that is not rejected has a snippet, and an analysis of it. -/
theorem rejected_or_analyzed (listener : Listener) (settings : Settings)
    (request : AnalyzeRequest) (s : Surroundings) :
    (∃ exitCode, request.Rejected listener settings s exitCode) ∨
      ∃ code analysis, request.supply s = .text code ∧
        analyze settings listener code = .ok analysis := by
  cases given : request.supply s with
  | absent => exact .inl ⟨2, .absent given⟩
  | unreadable fault => exact .inl ⟨1, .unreadable given⟩
  | text code =>
    cases analyzed : analyze settings listener code with
    | ok analysis => exact .inr ⟨code, analysis, rfl, analyzed⟩
    | error refusal =>
      cases refusal with
      | empty =>
        exact .inl ⟨2, .empty (by rw [given, analyze_eq_empty_iff.mp analyzed])⟩
      | tooLarge size limit =>
        exact .inl ⟨2, .tooLarge given (analyze_eq_tooLarge_iff.mp analyzed).2.1⟩
      | failed reason => exact .inl ⟨1, .failed given analyzed⟩

theorem Rejected.not_analyzed {exitCode : Nat} {code : String} {analysis : Analysis}
    (rejected : request.Rejected listener settings s exitCode)
    (given : request.supply s = .text code) :
    analyze settings listener code ≠ .ok analysis := by
  intro analyzed
  cases rejected with
  | absent nothing => cases given.symm.trans nothing
  | unreadable found => cases given.symm.trans found
  | empty empty =>
    cases given.symm.trans empty
    cases analyzed.symm.trans (analyze_eq_empty_iff.mpr rfl)
  | tooLarge large exceeds =>
    cases given.symm.trans large
    have fits := (sizeRefusal?_eq_none_iff.mp (analyze_eq_ok_iff.mp analyzed).1).2
    exact absurd exceeds (Nat.not_lt_of_ge fits)
  | failed broken breaks =>
    cases given.symm.trans broken
    cases analyzed.symm.trans breaks

theorem Rejected.unique {first second : Nat}
    (one : request.Rejected listener settings s first)
    (other : request.Rejected listener settings s second) : first = second := by
  obtain ⟨failure, notices, ran, code⟩ := one.exists_run
  obtain ⟨failure', notices', ran', code'⟩ := other.exists_run
  cases ran.symm.trans ran'
  exact code.symm.trans code'

/-- How a request ends: it is rejected and leaves all as it was; or the report cannot be written, and
the archive is as it was; or the report stands where it is shown, and the archive has gained the line of
its entry or nothing. -/
structure Atomic (listener : Listener) (settings : Settings) (request : AnalyzeRequest)
    (s : Surroundings) (outcome : Except Failure Report) (later : Surroundings) : Prop where
  /-- The disk is as it was if there is no report, files to write to included. -/
  rejected : ∀ exitCode, request.Rejected listener settings s exitCode →
    later.disk = s.disk ∧ ∃ failure, outcome = .error failure ∧ failure.exitCode = exitCode
  /-- Only what is the caller's fault has the exit code two. -/
  callers : ∀ failure, outcome = .error failure →
    (failure.exitCode = 2 ↔ request.Rejected listener settings s 2)
  /-- A request that fails, at whatever step, archives nothing. -/
  failed : ∀ failure, outcome = .error failure →
    later.file? ⟨settings.archive.path⟩ = s.file? ⟨settings.archive.path⟩
  /-- If the report cannot be written, that is how the request ends. -/
  unwritten : ∀ code analysis, request.supply s = .text code →
    analyze settings listener code = .ok analysis →
    ∃ notices, ∀ failure between,
      (request.target.show "report" (.report analysis.report) :
        Attempt (StateM Surroundings) Unit).run { s with notices } = (.error failure, between) →
      outcome = .error failure ∧ later = between
  /-- A request that goes through leaves the whole report on the snippet as it was before, even where
  the report takes the place of the snippet. -/
  written : ∀ report, outcome = .ok report → ∃ code analysis, request.supply s = .text code ∧
    analyze settings listener code = .ok analysis ∧ report = analysis.report ∧
    ∀ output, request.target.path = some output → later.file? output = some
      ((Exhibit.report report).render request.target.format request.target.colors).toUTF8
  /-- The archive gains what storing the report brings it. -/
  archived : ∀ code report, request.supply s = .text code → outcome = .ok report →
    settings.archive.enabled = true → request.archived = true →
    ∃ between, Changed request.target.path.toList s between ∧
      ArchiveFile.Gained s ⟨settings.archive.path⟩ (.make code report s.now)
        ((ArchiveFile.store ⟨settings.archive.path⟩ code report :
          Attempt (StateM Surroundings) ArchiveEntry).run between).1 later
  /-- The archive is as it was if it is not wanted. -/
  unarchived : settings.archive.enabled = false ∨ request.archived = false →
    later.file? ⟨settings.archive.path⟩ = s.file? ⟨settings.archive.path⟩
  /-- No other file changes. -/
  elsewhere : Changed (⟨settings.archive.path⟩ :: request.target.path.toList) s later

section Ends

variable {code : String} {analysis : Analysis} {failure : Failure} {between : Surroundings}
  {notices : Array Notice}

theorem atomic_of_rejected {exitCode : Nat}
    (rejected : request.Rejected listener settings s exitCode)
    (fails : failure.exitCode = exitCode) :
    request.Atomic listener settings s (.error failure) { s with notices } where
  rejected other again := ⟨rfl, failure, rfl, fails.trans (rejected.unique again)⟩
  callers _ same := by
    cases same
    rw [fails]
    refine ⟨?_, fun again => rejected.unique again⟩
    rintro rfl
    exact rejected
  failed _ _ := rfl
  unwritten code analysis given analyzed := absurd analyzed (rejected.not_analyzed given)
  written _ := nofun
  archived _ _ _ := nofun
  unarchived _ := rfl
  elsewhere := .notices _ s notices

variable (apart : ∀ output, request.target.path = some output →
    Disk.aim s.folder output ≠ Disk.aim s.folder ⟨settings.archive.path⟩)
  (given : request.supply s = .text code)
  (analyzed : analyze settings listener code = .ok analysis)

include apart in
theorem aim_ne_of_mem : ∀ output ∈ request.target.path.toList,
    Disk.aim s.folder output ≠ Disk.aim s.folder ⟨settings.archive.path⟩ :=
  fun output member => apart output (by simpa using member)

theorem changed_of_shown {report : Report} {result : Except Failure Unit}
    (shown : (request.target.show "report" (.report report) :
      Attempt (StateM Surroundings) Unit).run { s with notices } = (result, later)) :
    Changed request.target.path.toList s later :=
  (Changed.notices _ s notices).trans ((request.target.changes_show _ _).changed shown)

include apart given analyzed in
theorem atomic_of_unwritten
    (fails : (request.target.show "report" (.report analysis.report) :
      Attempt (StateM Surroundings) Unit).run { s with notices } = (.error failure, later)) :
    request.Atomic listener settings s (.error failure) later := by
  have changed := changed_of_shown fails
  have same := changed.file? (aim_ne_of_mem apart)
  have blameless : failure.exitCode = 1 := request.target.blameless_show _ _ _ _ _ fails
  exact {
    rejected := fun _ rejected => absurd analyzed (rejected.not_analyzed given)
    callers := by
      rintro _ ⟨⟩
      rw [blameless]
      exact ⟨nofun, fun rejected => absurd analyzed (rejected.not_analyzed given)⟩
    failed := fun _ _ => same
    unwritten := by
      intro code' analysis' given' analyzed'
      cases given.symm.trans given'
      cases analyzed.symm.trans analyzed'
      refine ⟨notices, fun failure' between ran => ?_⟩
      cases fails.symm.trans ran
      exact ⟨rfl, rfl⟩
    written := nofun
    archived := nofun
    unarchived := fun _ => same
    elsewhere := changed.mono (List.subset_cons_self _ _) }

include apart given analyzed in
theorem atomic_of_written
    (shown : (request.target.show "report" (.report analysis.report) :
      Attempt (StateM Surroundings) Unit).run { s with notices } = (.ok (), between)) :
    request.Atomic listener settings s (.ok analysis.report)
      (request.archiving settings code analysis.report between) := by
  have changed := changed_of_shown shown
  have stored := request.changed_archiving settings code analysis.report between
  exact {
    rejected := fun _ rejected => absurd analyzed (rejected.not_analyzed given)
    callers := nofun
    failed := nofun
    unwritten := by
      intro code' analysis' given' analyzed'
      cases given.symm.trans given'
      cases analyzed.symm.trans analyzed'
      exact ⟨notices, fun failure between' ran => nomatch shown.symm.trans ran⟩
    written := by
      rintro _ ⟨⟩
      refine ⟨code, analysis, given, analyzed, rfl, fun output named => ?_⟩
      rw [stored.file? (by simpa [changed.folder] using (apart output named).symm)]
      exact (request.target.holds_of_show named shown).file?
    archived := by
      rintro code' _ given' ⟨⟩ enabled wanted
      cases given.symm.trans given'
      refine ⟨between, changed, ?_⟩
      rw [archiving, enabled, wanted, Bool.and_self, if_pos rfl, ← changed.now]
      exact (ArchiveFile.gained_tryStore _ code analysis.report between).of_changed changed
        (aim_ne_of_mem apart)
    unarchived := by
      intro off
      have disabled : (settings.archive.enabled && request.archived) = false := by
        rcases off with off | off <;> simp [off]
      rw [archiving, disabled, if_neg Bool.false_ne_true]
      exact changed.file? (aim_ne_of_mem apart)
    elsewhere := (changed.mono (List.subset_cons_self _ _)).trans
      (stored.mono (by simp)) }

end Ends

theorem atomic_runWith
    (apart : ∀ output, request.target.path = some output →
      Disk.aim s.folder output ≠ Disk.aim s.folder ⟨settings.archive.path⟩) :
    request.Atomic listener settings s
      ((request.runWith listener settings : Attempt (StateM Surroundings) Report).run s).1
      ((request.runWith listener settings : Attempt (StateM Surroundings) Report).run s).2 := by
  rw [run_runWith]
  rcases rejected_or_analyzed listener settings request s with
    ⟨exitCode, rejected⟩ | ⟨code, analysis, given, analyzed⟩
  · obtain ⟨failure, notices, ran, fails⟩ := rejected.exists_run
    rw [ran]
    exact atomic_of_rejected rejected fails
  · obtain ⟨notices, ran⟩ := exists_run_of_analyzed given analyzed
    rw [ran]
    cases shown : (request.target.show "report" (.report analysis.report) :
        Attempt (StateM Surroundings) Unit).run { s with notices } with
    | mk result between =>
      cases result with
      | error failure => exact atomic_of_unwritten apart given analyzed shown
      | ok _ => exact atomic_of_written apart given analyzed shown

/-- The outcome of a request is settled before anything is archived. -/
theorem outcome_runWith (listener : Listener) (settings : Settings) (request : AnalyzeRequest)
    (s : Surroundings) :
    ((request.runWith listener settings : Attempt (StateM Surroundings) Report).run s).1 =
      ((request.showReport listener settings : Attempt (StateM Surroundings) _).run s).1.map
        Prod.snd := by
  rw [run_runWith]
  cases (request.showReport listener settings : Attempt (StateM Surroundings) _).run s with
  | mk result between =>
    cases result with
    | error failure => rfl
    | ok shown =>
      obtain ⟨code, report⟩ := shown
      rfl

/-- A request whose snippet can be analysed goes through where its report can be written, whatever comes
of the archive. -/
theorem outcome_of_opens {code : String} {analysis : Analysis} {output : Path}
    (given : request.supply s = .text code)
    (analyzed : analyze settings listener code = .ok analysis)
    (named : request.target.path = some output) (near : Host.folderOf? output = none)
    (endless : s.disk.room = none)
    (opens : s.disk.Opens s.folder output (Disk.aim s.folder output)) :
    ((request.runWith listener settings : Attempt (StateM Surroundings) Report).run s).1 =
      .ok analysis.report := by
  obtain ⟨notices, ran⟩ := exists_run_of_analyzed given analyzed
  obtain ⟨between, shown⟩ := Target.exists_show (s := { s with notices }) named near endless opens
    "report" (.report analysis.report)
  rw [outcome_runWith, ran, shown]
  rfl

/-- However a request ends whose report is not shown in the archive, it leaves nothing halfway; and
its outcome is the same whatever archive there is, and without one. -/
theorem runWith_atomic (listener : Listener) (settings : Settings) (request : AnalyzeRequest)
    (s : Surroundings)
    (apart : ∀ output, request.target.path = some output →
      Disk.aim s.folder output ≠ Disk.aim s.folder ⟨settings.archive.path⟩) :
    request.Atomic listener settings s
        ((request.runWith listener settings : Attempt (StateM Surroundings) Report).run s).1
        ((request.runWith listener settings : Attempt (StateM Surroundings) Report).run s).2 ∧
      ∀ archive archived,
        ((runWith listener { settings with archive } { request with archived } :
          Attempt (StateM Surroundings) Report).run s).1 =
        ((request.runWith listener settings : Attempt (StateM Surroundings) Report).run s).1 := by
  refine ⟨atomic_runWith apart, fun archive archived => ?_⟩
  rw [outcome_runWith, outcome_runWith, showReport_archive]

/-- A folder with a snippet and an archive. -/
def snippetPlace : Surroundings :=
  { (default : Surroundings) with
    disk := ⟨[(["a.py"], .file "x = 1".toUTF8), (["r.jsonl"], .file "junk\n".toUTF8)], none⟩
    folder := [] }

/-- Shows the report on a snippet in place of it. -/
def replacingRequest : AnalyzeRequest :=
  ⟨some ⟨"a.py"⟩, none, ⟨.json, some ⟨"a.py"⟩, false⟩, true⟩

def nearbyArchive : Settings :=
  { archive := { path := "r.jsonl" } }

theorem snippetPlace_opens :
    snippetPlace.disk.Opens snippetPlace.folder ⟨"a.py"⟩
      (Disk.aim snippetPlace.folder ⟨"a.py"⟩) where
  sound := by decide +kernel
  open' := by decide +kernel
  free := by decide +kernel
  way := ⟨[], "a.py".toList, [], by decide +kernel, by decide +kernel, by decide +kernel, rfl, rfl,
    by decide +kernel⟩

theorem replacingRequest_apart : ∀ output, replacingRequest.target.path = some output →
    Disk.aim snippetPlace.folder output ≠
      Disk.aim snippetPlace.folder ⟨nearbyArchive.archive.path⟩ := by
  rintro _ ⟨⟩
  decide +kernel

theorem replacingRequest_supply : replacingRequest.supply snippetPlace = .text "x = 1" := by
  have found : snippetPlace.disk.get? (Disk.aim snippetPlace.folder ⟨"a.py"⟩) =
      some (.file "x = 1".toUTF8) := by
    have place : Disk.aim snippetPlace.folder ⟨"a.py"⟩ = ["a.py"] := by decide +kernel
    rw [place]
    rfl
  have other : (⟨"a.py"⟩ : Path) ≠ inputPath := by decide +kernel
  have read := snippetPlace_opens.read found
  rw [supply, replacingRequest]
  dsimp only
  rw [Supply.ofFile, if_neg other, read]
  dsimp only
  rw [Supply.ofBytes, ArchiveFile.fromUTF8?_toUTF8]

theorem exists_analyzed_replacingRequest :
    ∃ analysis, analyze nearbyArchive .quiet "x = 1" = .ok analysis :=
  ⟨_, analyze_eq_ok_iff.mpr ⟨sizeRefusal?_eq_none_iff.mpr ⟨by decide +kernel, by decide +kernel⟩,
    Listener.failure?_quiet 0 _, rfl⟩⟩

/-- The report on a snippet is shown in place of it, and is the report on what was there before. -/
theorem runWith_atomic_in_place :
    (∀ output, replacingRequest.target.path = some output →
      Disk.aim snippetPlace.folder output ≠
        Disk.aim snippetPlace.folder ⟨nearbyArchive.archive.path⟩) ∧
      ∃ analysis, analyze nearbyArchive .quiet "x = 1" = .ok analysis ∧
      ∃ outcome later, (replacingRequest.runWith .quiet nearbyArchive :
          Attempt (StateM Surroundings) Report).run snippetPlace = (outcome, later) ∧
        outcome = .ok analysis.report ∧
        later.file? ⟨"a.py"⟩ =
          some ((Exhibit.report analysis.report).render .json false).toUTF8 ∧
        replacingRequest.Atomic .quiet nearbyArchive snippetPlace outcome later := by
  obtain ⟨analysis, analyzed⟩ := exists_analyzed_replacingRequest
  obtain ⟨atomic, -⟩ := runWith_atomic .quiet nearbyArchive replacingRequest snippetPlace
    replacingRequest_apart
  have passed := outcome_of_opens replacingRequest_supply analyzed rfl (by decide +kernel) rfl
    snippetPlace_opens
  cases ended : (replacingRequest.runWith .quiet nearbyArchive :
      Attempt (StateM Surroundings) Report).run snippetPlace with
  | mk outcome later =>
    rw [ended] at atomic passed
    obtain ⟨code, _, _, _, _, holds⟩ := atomic.written _ passed
    exact ⟨replacingRequest_apart, analysis, analyzed, outcome, later, rfl, passed,
      holds ⟨"a.py"⟩ rfl, atomic⟩

end SnippetAudit.AnalyzeRequest
