import SnippetAudit.Proofs.Archive.Tail
import SnippetAudit.Proofs.Archive.Writings

/-!
Archives written by attempts of which any may be cut short. Listing goes through if and only if no
character has been cut, and then it gives every report that was stored if and only if none of them was
stored right behind the start of another line.
-/

namespace SnippetAudit

open Text

variable {s later : Surroundings} {path : Path} {bytes : ByteArray}

theorem Holds.of_furnished (holds : Holds s path bytes) (furnished : Furnished s later) :
    Holds later path bytes := by
  have file : later.disk.get? (Disk.aim later.folder path) = some (.file bytes) := by
    rw [furnished.folder]
    exact furnished.kept _ _ holds.file
  refine ⟨?_, file⟩
  rw [furnished.folder] at file ⊢
  refine holds.opens.mono (fun location here => furnished.kept location .folder here) ?_
  rw [Disk.holdsFolder, file]
  rfl

theorem Furnished.surroundings_contents (furnished : Furnished s later) (path : Path) :
    later.contents path = s.contents path := by
  rw [Surroundings.contents, furnished.contents, furnished.folder, Surroundings.contents]

namespace Trial

variable {trial : Trial}

def prepare (trial : Trial) (s : Surroundings) : Surroundings :=
  { s with now := trial.now, disk := { s.disk with room := trial.room } }

/-- Sets the clock and the room on the disk, and stores the report. -/
def act (path : Path) (trial : Trial) :
    StateM Surroundings (Except Failure ArchiveEntry) := do
  modify trial.prepare
  (ArchiveFile.store path trial.code trial.report).run

/-- An attempt came as far as writing to the file. -/
def reaches : Except Failure ArchiveEntry → Bool
  | .ok _ => true
  | .error failure => match failure.cause with
    | .archive .append _ => true
    | _ => false

def reaching (trials : List Trial) (outcomes : List (Except Failure ArchiveEntry)) : List Trial :=
  ((trials.zip outcomes).filter fun (_, outcome) => reaches outcome).map Prod.fst

theorem holds_prepare (trial : Trial) (holds : Holds s path bytes) :
    Holds (trial.prepare s) path bytes :=
  ⟨holds.opens.mono (fun _ here => here) holds.opens.free, holds.file⟩

/-- What an attempt comes to: it stops before it writes to the file, or it writes what there is room
for and gives the entry if that is all of its line. -/
inductive Ended (s : Surroundings) (path : Path) (trial : Trial) :
    Except Failure ArchiveEntry → Surroundings → Prop
  | early {outcome : Except Failure ArchiveEntry} {later : Surroundings}
    (stopped : reaches outcome = false) (nothing : outcome.toOption = none)
    (blocked : Host.folderOf? path = none → ¬s.disk.Opens s.folder path (Disk.aim s.folder path))
    (same : later.contents path = s.contents path)
    (keeps : ∀ bytes, Holds s path bytes → Holds later path bytes) : Ended s path trial outcome later
  | late {outcome : Except Failure ArchiveEntry} {later : Surroundings}
    (reached : reaches outcome = true)
    (gives : outcome.toOption = if trial.Fits then some trial.entry else none)
    (holds : Holds later path (s.contents path ++ trial.written)) : Ended s path trial outcome later

theorem ended_act (path : Path) (trial : Trial) (s : Surroundings) :
    Ended s path trial ((trial.act path).run s).1 ((trial.act path).run s).2 := by
  obtain ⟨outcome, later, added, notices, stored⟩ :=
    ArchiveFile.exists_added_store path trial.code trial.report (trial.prepare s)
  have ran : (trial.act path).run s =
      (ArchiveFile.store path trial.code trial.report :
        Attempt (StateM Surroundings) ArchiveEntry).run (trial.prepare s) := rfl
  rw [ran, stored]
  cases added with
  | @nothing stage fault _ early furnished blocked =>
    refine .early ?_ rfl (fun near opens => ?_) (furnished.surroundings_contents path)
      fun bytes holds => ?_
    · cases stage with
      | append => exact absurd rfl early
      | makeFolder | openFile | read => rfl
    · exact blocked near (opens.mono (fun _ here => here) opens.free)
    · have kept := (trial.holds_prepare holds).of_furnished furnished
      exact ⟨kept.opens, kept.file⟩
  | everything same whole room holds =>
    have all : trial.written = trial.wanted := whole
    have fits : trial.Fits := by rw [Fits, all]
    refine .late rfl ?_ ⟨holds.opens, ?_⟩
    · rw [if_pos fits]
      rfl
    · rw [all]
      exact holds.file
  | part same short holds =>
    have cut : ¬trial.Fits := Nat.ne_of_lt short
    refine .late rfl ?_ ⟨holds.opens, holds.file⟩
    rw [if_neg cut]
    rfl

theorem reaching_cons_of_early {trials : List Trial} {outcome : Except Failure ArchiveEntry}
    {outcomes : List (Except Failure ArchiveEntry)} (stopped : reaches outcome = false) :
    reaching (trial :: trials) (outcome :: outcomes) = reaching trials outcomes := by
  rw [reaching, List.zip_cons_cons, List.filter_cons_of_neg (by simp [stopped]), reaching]

theorem reaching_cons_of_late {trials : List Trial} {outcome : Except Failure ArchiveEntry}
    {outcomes : List (Except Failure ArchiveEntry)} (reached : reaches outcome = true) :
    reaching (trial :: trials) (outcome :: outcomes) = trial :: reaching trials outcomes := by
  rw [reaching, List.zip_cons_cons, List.filter_cons_of_pos (by simp [reached]), List.map_cons,
    reaching]

theorem run_mapM_cons (path : Path) (trial : Trial) (trials : List Trial) (s : Surroundings) :
    ((trial :: trials).mapM (act path)).run s =
      (((trial.act path).run s).1 ::
          ((trials.mapM (act path)).run ((trial.act path).run s).2).1,
        ((trials.mapM (act path)).run ((trial.act path).run s).2).2) := by
  rw [List.mapM_cons]
  rfl

theorem holds_of_mapM {trials : List Trial} {outcomes : List (Except Failure ArchiveEntry)}
    (ran : (trials.mapM (act path)).run s = (outcomes, later)) :
    outcomes.filterMap Except.toOption =
        ((reaching trials outcomes).filter Fits).map entry ∧
      (∀ bytes, Holds s path bytes →
        Holds later path (bytes ++ bytesOf (reaching trials outcomes))) ∧
      (reaching trials outcomes ≠ [] →
        Holds later path (s.contents path ++ bytesOf (reaching trials outcomes))) := by
  induction trials generalizing s outcomes with
  | nil =>
    cases ran
    refine ⟨rfl, fun bytes holds => ?_, fun some' => absurd rfl some'⟩
    rw [reaching, List.zip_nil_left]
    exact (ByteArray.append_empty (b := bytes)).symm ▸ holds
  | cons trial trials ih =>
    rw [run_mapM_cons] at ran
    cases rest : (trials.mapM (act path)).run ((trial.act path).run s).2 with
    | mk others after =>
      rw [rest] at ran
      cases ran
      obtain ⟨gives, keeps, holds⟩ := ih rest
      cases ended_act path trial s with
      | early stopped nothing blocked same kept =>
        rw [reaching_cons_of_early stopped, List.filterMap_cons_none nothing]
        refine ⟨gives, fun bytes before => keeps bytes (kept bytes before), fun some' => ?_⟩
        rw [← same]
        exact holds some'
      | late reached given left =>
        have further := keeps _ left
        rw [ByteArray.append_assoc] at further
        rw [reaching_cons_of_late reached, bytesOf_cons]
        refine ⟨?_, fun bytes before => ?_, fun _ => further⟩
        · by_cases fits : trial.Fits
          · rw [if_pos fits] at given
            rw [List.filterMap_cons_some given, List.filter_cons_of_pos (by simpa using fits),
              List.map_cons, gives]
          · rw [if_neg fits] at given
            rw [List.filterMap_cons_none given, List.filter_cons_of_neg (by simpa using fits), gives]
        · rw [← before.contents]
          exact further

/-- In a folder that is there, every attempt comes as far as writing to the file. -/
theorem reaching_eq_self (near : Host.folderOf? path = none)
    (opens : s.disk.Opens s.folder path (Disk.aim s.folder path)) {trials : List Trial}
    {outcomes : List (Except Failure ArchiveEntry)}
    (ran : (trials.mapM (act path)).run s = (outcomes, later)) :
    reaching trials outcomes = trials := by
  induction trials generalizing s outcomes with
  | nil => rfl
  | cons trial trials ih =>
    rw [run_mapM_cons] at ran
    cases rest : (trials.mapM (act path)).run ((trial.act path).run s).2 with
    | mk others after =>
      rw [rest] at ran
      cases ran
      cases ended_act path trial s with
      | early stopped nothing blocked same kept => exact absurd opens (blocked near)
      | late reached given left => rw [reaching_cons_of_late reached, ih left.opens rest]

theorem mem_of_mem_reaching {trials : List Trial} {outcomes : List (Except Failure ArchiveEntry)}
    (member : trial ∈ reaching trials outcomes) : trial ∈ trials := by
  obtain ⟨⟨other, outcome⟩, listed, rfl⟩ := List.mem_map.mp member
  exact (List.of_mem_zip (List.mem_filter.mp listed).1).1

/-- Each attempt that fits comes first, or after one that fits too, but for attempts that leave
nothing. -/
def OnFreshLines (trials : List Trial) : Prop :=
  ∀ before next later, trials = before ++ next :: later → next.Fits →
    ∀ last ∈ (before.filter fun trial => trial.written.size ≠ 0).getLast?, last.Fits

end Trial

/-- However often a report is stored in a file that is empty or not there, and wherever the attempts
are cut short: the archive can be listed if and only if no character has been cut, and then every
report that was stored is listed, each at its place, if and only if each was stored on a fresh line.
-/
theorem list_of_trials {s later : Surroundings} {path : Path} (empty : s.contents path = .empty)
    {trials : List Trial} (storable : ∀ trial ∈ trials, trial.entry.Storable)
    {outcomes : List (Except Failure ArchiveEntry)}
    (ran : (trials.mapM (Trial.act path)).run s = (outcomes, later))
    (built : Trial.reaching trials outcomes ≠ []) :
    outcomes.filterMap Except.toOption =
        ((Trial.reaching trials outcomes).filter Trial.Fits).map Trial.entry ∧
      ((∀ trial ∈ Trial.reaching trials outcomes, trial.written.IsValidUTF8) →
        ∃ notices, (ArchiveFile.list path : Attempt (StateM Surroundings) _).run later =
          (.ok ((Tail.fresh.listed (Trial.reaching trials outcomes)).map Trial.entry),
            { later with notices })) ∧
      ((¬∀ trial ∈ Trial.reaching trials outcomes, trial.written.IsValidUTF8) →
        (ArchiveFile.list path : Attempt (StateM Surroundings) _).run later =
          (.error (.of (.archive .read .noText)), later)) ∧
      (((Trial.reaching trials outcomes).filter Trial.Fits).Sublist
          (Tail.fresh.listed (Trial.reaching trials outcomes)) ↔
        Trial.OnFreshLines (Trial.reaching trials outcomes)) := by
  obtain ⟨gives, _, written⟩ := Trial.holds_of_mapM ran
  have holds := written built
  rw [empty, ByteArray.empty_append] at holds
  refine ⟨gives, fun valid => ?_, fun broken => ?_, ?_⟩
  · have shows' : Tail.fresh.Shows [] := rfl
    obtain ⟨text, bytes, entries⟩ := Tail.exists_text_of_listed shows'
      (fun trial member => storable trial (Trial.mem_of_mem_reaching member)) valid
    rw [bytes] at holds
    obtain ⟨notices, listed⟩ := ArchiveFile.exists_run_list holds (ArchiveFile.fromUTF8?_toUTF8 _)
    rw [List.nil_append] at entries
    rw [entries] at listed
    exact ⟨notices, listed⟩
  · refine ArchiveFile.run_list_of_noText holds (dif_neg ?_)
    rwa [Trial.bytesOf_isValidUTF8_iff]
  · rw [Tail.filter_sublist_listed_iff (fun other member => absurd member List.not_mem_nil)]
    simp only [Tail.foldl_after_fresh_iff, Trial.OnFreshLines]

def cutTrial : Trial :=
  ⟨⟨1700000000, 0⟩, some 7, "x = 1", sampleReport⟩

def wholeTrial : Trial :=
  ⟨⟨1700000060, 0⟩, none, "x = 1", sampleReport⟩

theorem cutTrial_short :
    cutTrial.written.size = 7 ∧ 8 < cutTrial.wanted.size ∧ cutTrial.written.IsValidUTF8 := by
  decide +kernel

theorem wholeTrial_fits : wholeTrial.Fits := rfl

theorem storable_of_mem_trials : ∀ trial ∈ [cutTrial, wholeTrial], trial.entry.Storable := by
  intro trial member
  simp only [List.mem_cons, List.not_mem_nil, or_false] at member
  rcases member with rfl | rfl
  · exact ⟨sampleReport_storable, by decide +kernel⟩
  · exact ⟨sampleReport_storable, by decide +kernel⟩

theorem valid_of_mem_trials : ∀ trial ∈ [cutTrial, wholeTrial], trial.written.IsValidUTF8 := by
  intro trial member
  simp only [List.mem_cons, List.not_mem_nil, or_false] at member
  rcases member with rfl | rfl
  · exact cutTrial_short.2.2
  · exact (wholeTrial.entry.line ++ "\n").isValidUTF8

theorem cutTrial_not_fits : ¬cutTrial.Fits := by
  obtain ⟨size, large, _⟩ := cutTrial_short
  intro fits
  rw [Trial.Fits, size] at fits
  omega

theorem listed_trials : Tail.fresh.listed [cutTrial, wholeTrial] = [] := by
  obtain ⟨size, large, _⟩ := cutTrial_short
  have some' : cutTrial.written.size ≠ 0 := by omega
  have other : ¬cutTrial.written.size + 1 = cutTrial.wanted.size := by omega
  have spoils : Tail.fresh.after cutTrial = .spoilt := by
    rw [Tail.after, if_neg some', if_neg cutTrial_not_fits, Tail.cutShort, if_neg other]
  rw [Tail.listed, Tail.gains_of_not_fits cutTrial_not_fits, spoils, Tail.listed,
    Tail.after_of_fits wholeTrial_fits]
  rfl

/-- A report that has been stored is not listed, since the one before it was cut short. -/
theorem list_of_sampleTrials :
    emptyPlace.contents ⟨"r.jsonl"⟩ = .empty ∧
      (∀ trial ∈ [cutTrial, wholeTrial], trial.entry.Storable) ∧ ∃ outcomes later,
        ([cutTrial, wholeTrial].mapM (Trial.act ⟨"r.jsonl"⟩)).run emptyPlace = (outcomes, later) ∧
          Trial.reaching [cutTrial, wholeTrial] outcomes ≠ [] ∧
          outcomes.filterMap Except.toOption = [wholeTrial.entry] ∧
          ∃ notices, (ArchiveFile.list ⟨"r.jsonl"⟩ : Attempt (StateM Surroundings) _).run later =
            (.ok [], { later with notices }) := by
  have empty : emptyPlace.contents ⟨"r.jsonl"⟩ = .empty := by
    rw [Surroundings.contents, Disk.contents, emptyPlace_free]
  cases ran : ([cutTrial, wholeTrial].mapM (Trial.act ⟨"r.jsonl"⟩)).run emptyPlace with
  | mk outcomes later =>
    have all := Trial.reaching_eq_self emptyPlace_unhindered.near emptyPlace_unhindered.opens ran
    have built : Trial.reaching [cutTrial, wholeTrial] outcomes ≠ [] := by
      rw [all]
      exact List.cons_ne_nil _ _
    obtain ⟨gives, listed, _⟩ := list_of_trials empty storable_of_mem_trials ran built
    rw [all, List.filter_cons_of_neg (by simpa using cutTrial_not_fits),
      List.filter_cons_of_pos (by simpa using wholeTrial_fits)] at gives
    rw [all, listed_trials] at listed
    exact ⟨empty, storable_of_mem_trials, outcomes, later, rfl, built, gives,
      listed valid_of_mem_trials⟩

end SnippetAudit
