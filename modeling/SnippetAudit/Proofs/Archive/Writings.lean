import SnippetAudit.Proofs.Archive.Contents
import SnippetAudit.Proofs.Archive.File

/-!
Archives written line by line. However many reports are stored in a file, and whatever lines someone
else writes between them, what is listed are the entries of those reports in the order in which they
were stored.
-/

namespace SnippetAudit

open Text

variable {s later : Surroundings} {path : Path}

/-- A path leads to nothing, and neither would it if the folders on its way were made. -/
structure Absent (s : Surroundings) (path : Path) : Prop where
  missing : s.disk.read s.folder path = .error .missing
  free : s.disk.get? (Disk.aim s.folder path) = none

/-- What is done to an archive: a report is stored at some instant, or someone else writes a line. -/
inductive Writing where
  | store (now : Instant) (code : String) (report : Report)
  | line (text : List Char)

namespace Writing

def record? : Writing → Option ArchiveEntry
  | store now code report => some (.make code report now)
  | line _ => none

def chars : Writing → List Char
  | store now code report => (ArchiveEntry.make code report now).line.toList
  | line text => text

/-- An entry that reads back, or one line that is no entry. -/
def Proper : Writing → Prop
  | store now code report => (ArchiveEntry.make code report now).Storable
  | line text => '\n' ∉ text ∧ IsForeign text

/-- Sets the clock and stores a report, or adds the bytes of a line and its newline. -/
def act (path : Path) : Writing → Attempt (StateM Surroundings) (Option ArchiveEntry)
  | store now code report => do
    Attempt.sure (modify fun s => { s with now })
    return some (← ArchiveFile.store path code report)
  | line text => do
    ArchiveFile.add path (String.ofList text ++ "\n").toUTF8
    return none

def textOf (writings : List Writing) : List Char :=
  writings.flatMap fun writing => writing.chars ++ ['\n']

theorem newline_not_mem_chars {writing : Writing} (proper : writing.Proper) :
    '\n' ∉ writing.chars := by
  cases writing with
  | store now code report => exact ArchiveEntry.newline_not_mem_line proper
  | line text => exact proper.1

theorem ofLineOrBlank?_chars {writing : Writing} (proper : writing.Proper) :
    ArchiveEntry.ofLineOrBlank? (dropReturn writing.chars) = writing.record? := by
  cases writing with
  | store now code report =>
    rw [chars, ArchiveEntry.dropReturn_line proper]
    exact ArchiveEntry.ofLineOrBlank?_line proper
  | line text => exact proper.2.dropReturn.ofLineOrBlank?

theorem textOf_cons (writing : Writing) (writings : List Writing) :
    textOf (writing :: writings) = (writing.chars ++ ['\n']) ++ textOf writings :=
  List.flatMap_cons

theorem entriesOf_textOf {writings : List Writing} (proper : ∀ writing ∈ writings, writing.Proper) :
    ArchiveFile.entriesOf (String.ofList (textOf writings)) = writings.filterMap record? := by
  induction writings with
  | nil => rfl
  | cons writing writings ih =>
    have first := proper writing List.mem_cons_self
    rw [textOf_cons, List.append_assoc, List.singleton_append,
      ArchiveFile.entriesOf_append_newline (newline_not_mem_chars first),
      ofLineOrBlank?_chars first, ih fun other member => proper other (.tail _ member),
      List.filterMap_cons]
    cases writing.record? <;> rfl

/-- Surroundings with the clock at the instant at which a report is stored. -/
def prepare (s : Surroundings) : Writing → Surroundings
  | store now _ _ => { s with now }
  | line _ => s

/-- Whatever is written, its characters and a newline are added to the file, and nothing else is. -/
theorem exists_added_act (path : Path) (writing : Writing) (s : Surroundings) :
    ∃ outcome between, ArchiveFile.Added (writing.prepare s) path
        (String.ofList (writing.chars ++ ['\n'])).toUTF8 (outcome, between) ∧
      ∃ notices, (writing.act path).run s =
        (outcome.map fun _ => writing.record?, { between with notices }) := by
  cases writing with
  | store now code report =>
    have clock : (modify fun s => { s with now } : StateM Surroundings Unit).run s =
      ((), { s with now }) := rfl
    have text : String.ofList (chars (.store now code report) ++ ['\n']) =
        (ArchiveEntry.make code report now).line ++ "\n" := by
      rw [chars, String.ofList_append, String.ofList_toList]
    obtain ⟨outcome, between, added, notices, stored⟩ :=
      ArchiveFile.exists_added_store path code report { s with now }
    refine ⟨outcome, between, text ▸ added, notices, ?_⟩
    rw [act, Attempt.run_bind, Attempt.run_sure, clock]
    dsimp only
    rw [Attempt.run_bind, stored]
    cases outcome <;> rfl
  | line text =>
    have added := ArchiveFile.added_add path (String.ofList (text ++ ['\n'])).toUTF8 s
    have bytes : String.ofList text ++ "\n" = String.ofList (text ++ ['\n']) :=
      String.ofList_append.symm
    rw [act, bytes, Attempt.run_bind]
    cases ran : (ArchiveFile.add path (String.ofList (text ++ ['\n'])).toUTF8 :
        Attempt (StateM Surroundings) Unit).run s with
    | mk outcome between =>
      rw [ran] at added
      refine ⟨outcome, between, added, between.notices, ?_⟩
      cases outcome <;> rfl

theorem holds_of_act {writing : Writing} {result : Option ArchiveEntry}
    (ran : (writing.act path).run s = (.ok result, later)) :
    result = writing.record? ∧ later.folder = s.folder ∧
      Holds later path (s.contents path ++ (String.ofList (writing.chars ++ ['\n'])).toUTF8) := by
  obtain ⟨outcome, between, added, notices, acted⟩ := writing.exists_added_act path s
  rw [acted] at ran
  have here : (writing.prepare s).folder = s.folder ∧
      (writing.prepare s).contents path = s.contents path := by
    cases writing <;> exact ⟨rfl, rfl⟩
  cases added with
  | nothing early furnished blocked => cases ran
  | part same short holds => cases ran
  | everything same whole room holds =>
    cases ran
    rw [here.2] at holds
    exact ⟨rfl, same.trans here.1, holds.opens, holds.file⟩

/-- Writings that all go through leave their text at the end of the file. -/
theorem holds_of_mapM {writings : List Writing} {results : List (Option ArchiveEntry)}
    (ran : (writings.mapM (act path)).run s = (.ok results, later)) :
    results = writings.map record? ∧ (writings = [] ∧ later = s ∨
      Holds later path (s.contents path ++ (String.ofList (textOf writings)).toUTF8)) := by
  induction writings generalizing s results with
  | nil =>
    cases ran
    exact ⟨rfl, Or.inl ⟨rfl, rfl⟩⟩
  | cons writing writings ih =>
    rw [List.mapM_cons, Attempt.run_bind] at ran
    cases first : (writing.act path).run s with
    | mk outcome between =>
      rw [first] at ran
      cases outcome with
      | error failure => cases ran
      | ok result =>
        obtain ⟨rfl, folder, holds⟩ := holds_of_act first
        dsimp only at ran
        rw [Attempt.run_bind] at ran
        cases rest : (writings.mapM (act path)).run between with
        | mk outcome after =>
          rw [rest] at ran
          cases outcome with
          | error failure => cases ran
          | ok others =>
            cases ran
            obtain ⟨rfl, ends⟩ := ih rest
            refine ⟨rfl, Or.inr ?_⟩
            rcases ends with ⟨rfl, rfl⟩ | later
            · simpa [textOf] using holds
            · rw [holds.contents] at later
              rw [textOf_cons, String.ofList_append, String.toUTF8_eq_toByteArray,
                String.toByteArray_append, ← ByteArray.append_assoc]
              exact later

end Writing

/-- A file in the current folder can be written, and the disk is never full. -/
structure Unhindered (s : Surroundings) (path : Path) : Prop where
  near : Host.folderOf? path = none
  endless : s.disk.room = none
  opens : s.disk.Opens s.folder path (Disk.aim s.folder path)

theorem Unhindered.add {bytes : ByteArray} {outcome : Except Failure Unit}
    (unhindered : Unhindered s path) (added : ArchiveFile.Added s path bytes (outcome, later)) :
    outcome = .ok () ∧ Unhindered later path := by
  cases added with
  | nothing early furnished blocked => exact absurd unhindered.opens (blocked unhindered.near)
  | part same short holds =>
    have whole : s.disk.fitting bytes = bytes := by rw [Disk.fitting, unhindered.endless]
    rw [whole] at short
    exact absurd short (Nat.lt_irrefl _)
  | everything same whole room holds =>
    exact ⟨rfl, unhindered.near, room unhindered.endless, holds.opens⟩

theorem Unhindered.act (unhindered : Unhindered s path) (writing : Writing) :
    ∃ later, (writing.act path).run s = (.ok writing.record?, later) ∧ Unhindered later path := by
  obtain ⟨outcome, between, added, notices, acted⟩ := writing.exists_added_act path s
  have start : Unhindered (writing.prepare s) path := by
    cases writing <;> exact ⟨unhindered.near, unhindered.endless, unhindered.opens⟩
  obtain ⟨rfl, near, endless, opens⟩ := start.add added
  exact ⟨{ between with notices }, acted, near, endless, opens⟩

theorem Unhindered.mapM (unhindered : Unhindered s path) (writings : List Writing) :
    ∃ later, (writings.mapM (Writing.act path)).run s =
      (.ok (writings.map Writing.record?), later) := by
  induction writings generalizing s with
  | nil => exact ⟨s, rfl⟩
  | cons writing writings ih =>
    obtain ⟨between, first, still⟩ := unhindered.act writing
    obtain ⟨later, rest⟩ := ih still
    refine ⟨later, ?_⟩
    rw [List.mapM_cons, Attempt.run_bind, first]
    dsimp only
    rw [Attempt.run_bind, rest]
    rfl

/-- Storing reports in a file that is not there yet, with lines of someone else between them, makes
an archive that lists exactly the entries that were stored, in that order; a limit keeps the last of
them. -/
theorem list_of_writings {s later : Surroundings} {path : Path} (absent : Absent s path)
    {writings : List Writing} (proper : ∀ writing ∈ writings, writing.Proper)
    {results : List (Option ArchiveEntry)}
    (ran : (writings.mapM (Writing.act path)).run s = (.ok results, later)) :
    results = writings.map Writing.record? ∧
      (∃ notices, (ArchiveFile.list path : Attempt (StateM Surroundings) _).run later =
        (.ok (writings.filterMap Writing.record?), { later with notices })) ∧
      ∀ limit : Nat, ∃ earlier,
        writings.filterMap Writing.record? =
          earlier ++ ArchiveEntry.mostRecent limit (writings.filterMap Writing.record?) ∧
        (ArchiveEntry.mostRecent limit (writings.filterMap Writing.record?)).length =
          min limit (writings.filterMap Writing.record?).length := by
  obtain ⟨entries, ends⟩ := Writing.holds_of_mapM ran
  refine ⟨entries, ?_, ?_⟩
  · rcases ends with ⟨rfl, rfl⟩ | holds
    · exact ⟨later.notices, ArchiveFile.run_list_of_missing absent.missing⟩
    · have empty : s.contents path = .empty := by
        rw [Surroundings.contents, Disk.contents, absent.free]
      rw [empty, ByteArray.empty_append] at holds
      obtain ⟨notices, listed⟩ := ArchiveFile.exists_run_list holds (ArchiveFile.fromUTF8?_toUTF8 _)
      rw [Writing.entriesOf_textOf proper] at listed
      exact ⟨notices, listed⟩
  · intro limit
    refine ⟨_, (List.take_append_drop _ _).symm, ?_⟩
    rw [ArchiveEntry.mostRecent, List.length_drop]
    omega

def emptyPlace : Surroundings :=
  { (default : Surroundings) with disk := ⟨[], none⟩, folder := [] }

def sampleReport : Report :=
  ⟨60, .needsImprovement, ⟨1, 12.5, 1, 70.0, 97, .constant, .constant⟩,
    [⟨.critical, "Usage of 'eval()' detected.", 1, .unsafeEval⟩]⟩

/-- Two reports, and lines of someone else before, between and behind them. -/
def sampleWritings : List Writing :=
  [.line [], .store ⟨1700000000, 123000000⟩ "eval(\"1\")\n\t\u00e9" sampleReport,
    .line "\x7b\"id\":1\x7d\x0d".toList, .store ⟨1700000060, 0⟩ "" sampleReport, .line "junk".toList]

theorem sampleReport_storable : sampleReport.Storable := by
  refine ⟨by decide, by decide, by decide +kernel, by decide, by decide +kernel, by decide, ?_⟩
  intro issue member
  rw [List.mem_singleton.mp member]
  decide

theorem sampleWritings_proper : ∀ writing ∈ sampleWritings, writing.Proper := by
  intro writing member
  simp only [sampleWritings, List.mem_cons, List.not_mem_nil, or_false] at member
  rcases member with rfl | rfl | rfl | rfl | rfl
  · exact ⟨by decide, Or.inl rfl⟩
  · exact ⟨sampleReport_storable, by decide +kernel⟩
  · exact ⟨by decide +kernel, Or.inr (by decide +kernel)⟩
  · exact ⟨sampleReport_storable, by decide +kernel⟩
  · exact ⟨by decide +kernel, Or.inr (by decide +kernel)⟩

theorem emptyPlace_unhindered : Unhindered emptyPlace ⟨"r.jsonl"⟩ where
  near := by decide +kernel
  endless := rfl
  opens :=
    { sound := by decide +kernel
      open' := by decide +kernel
      free := by decide +kernel
      way := ⟨[], "r.jsonl".toList, [], by decide +kernel, by decide +kernel, by decide +kernel, rfl,
        rfl, by decide +kernel⟩ }

theorem emptyPlace_free :
    emptyPlace.disk.get? (Disk.aim emptyPlace.folder ⟨"r.jsonl"⟩) = none := by
  exact if_neg (by decide +kernel)

theorem absent_emptyPlace : Absent emptyPlace ⟨"r.jsonl"⟩ where
  missing := emptyPlace_unhindered.opens.read_of_get?_eq_none emptyPlace_free
  free := emptyPlace_free

/-- Two reports are listed in the order in which they were stored. -/
theorem list_of_sampleWritings :
    Absent emptyPlace ⟨"r.jsonl"⟩ ∧ (∀ writing ∈ sampleWritings, writing.Proper) ∧
      ∃ later, (sampleWritings.mapM (Writing.act ⟨"r.jsonl"⟩)).run emptyPlace =
          (.ok (sampleWritings.map Writing.record?), later) ∧
        ∃ notices, (ArchiveFile.list ⟨"r.jsonl"⟩ : Attempt (StateM Surroundings) _).run later =
          (.ok (sampleWritings.filterMap Writing.record?), { later with notices }) := by
  obtain ⟨later, ran⟩ := emptyPlace_unhindered.mapM sampleWritings
  exact ⟨absent_emptyPlace, sampleWritings_proper, later, ran,
    (list_of_writings absent_emptyPlace sampleWritings_proper ran).2.1⟩

end SnippetAudit
