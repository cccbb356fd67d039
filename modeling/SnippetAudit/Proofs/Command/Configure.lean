import SnippetAudit.Command.Configure
import SnippetAudit.Proofs.Command.Attempt
import SnippetAudit.Proofs.Settings.Sound

/-!
Where settings come from, on any host on which files can be read. Settings that are found depend on
the current folder and on the first text that can be read; and however they were come by, settings
that a command goes on with are sound.
-/

namespace SnippetAudit

/-- What is to be seen of a host in each of its states: the current folder and the bytes of files.
Looking at it changes nothing, and notices change no file. -/
structure Host.View (σ : Type) [Host (StateM σ)] where
  folder : σ → Except Fault Path
  read : σ → Path → Except Fault ByteArray
  run_folder (s : σ) : (Host.folder : StateM σ (Except Fault Path)).run s = (folder s, s)
  run_read (path : Path) (s : σ) :
    (Host.read path : StateM σ (Except Fault ByteArray)).run s = (read s path, s)
  read_note (notice : Notice) (s : σ) : read ((Host.note notice : StateM σ Unit).run s).2 = read s

/-- The text of a file, if there is one and it can be read. -/
def Host.View.text? {σ : Type} [Host (StateM σ)] (view : Host.View σ) (s : σ) (path : Path) :
    Option String :=
  (Host.decoded (view.read s path)).toOption

theorem Host.View.exists_run_noted {σ α : Type} [Host (StateM σ)] (view : Host.View σ)
    (notice : Notice) (value : α) (s : σ) :
    ∃ later, (do Host.note notice; return value : StateM σ α).run s = (value, later) ∧
      view.read later = view.read s :=
  ⟨_, rfl, view.read_note notice s⟩

/-- What is to be seen of surroundings. -/
def Surroundings.view : Host.View Surroundings where
  folder s := .ok (pathOf s.folder)
  read s := s.disk.read s.folder
  run_folder _ := rfl
  run_read _ _ := rfl
  read_note notice s := by
    obtain ⟨notices, noted⟩ := s.exists_notices notice
    rw [noted]

namespace Settings

variable {σ : Type} [Host (StateM σ)] {view : Host.View σ} {settings : Settings}

/-- Settings of the first file of a list that can be read, and else the defaults. -/
def firstOf (view : Host.View σ) (s : σ) (paths : List Path) : Settings :=
  (paths.findSome? (view.text? s)).elim {} orDefault

theorem sound_firstOf (s : σ) (paths : List Path) : (firstOf view s paths).Sound := by
  rw [firstOf]
  cases paths.findSome? (view.text? s) with
  | none => exact sound_default
  | some text => exact sound_orDefault text

/-- Nothing that is tried out changes what there is to be read next. -/
theorem exists_run_tryFile (view : Host.View σ) (path : Path) (s : σ) :
    ∃ later, (tryFile path : StateM σ (Option Settings)).run s =
      ((view.text? s path).map orDefault, later) ∧ view.read later = view.read s := by
  rw [tryFile, Host.run_bind_of_run (Host.run_readText (view.run_read path s)), Host.View.text?]
  cases Host.decoded (view.read s path) with
  | error fault =>
    by_cases missing : fault = .missing
    · subst missing
      exact ⟨s, rfl, rfl⟩
    · dsimp only
      rw [if_pos missing]
      exact view.exists_run_noted _ none s
  | ok text =>
    rw [Except.toOption, Option.map_some, orDefault]
    dsimp only
    cases Settings.ofText text with
    | ok settings => exact view.exists_run_noted _ (some settings) s
    | error defect => exact view.exists_run_noted _ (some ({} : Settings)) s

theorem run_tryFiles (view : Host.View σ) (paths : List Path) (s : σ) :
    ((tryFiles paths : StateM σ Settings).run s).1 = firstOf view s paths := by
  induction paths generalizing s with
  | nil => rfl
  | cons path paths ih =>
    obtain ⟨later, tried, same⟩ := exists_run_tryFile view path s
    rw [tryFiles, Host.run_bind_of_run tried, firstOf, List.findSome?_cons]
    cases view.text? s path with
    | some text => rfl
    | none =>
      -- a file that is passed over may leave a notice, so the next one is read in another state
      have kept : view.text? later = view.text? s := by
        funext other
        rw [Host.View.text?, same, Host.View.text?]
      have rest := ih later
      rw [firstOf, kept] at rest
      exact rest

/-- The paths under which settings are looked for from a folder, the nearest first. -/
def candidates (folder : Path) : List Path :=
  (folder.ancestors searchDepth).map (·.join fileName)

theorem run_discover (view : Host.View σ) (s : σ) :
    ((discover : StateM σ Settings).run s).1 =
      match view.folder s with
      | .error _ => {}
      | .ok folder => firstOf view s (candidates folder) := by
  rw [discover, Host.run_bind_of_run (view.run_folder s)]
  cases view.folder s with
  | error fault => rfl
  | ok folder => exact run_tryFiles view (candidates folder) s

theorem sound_discover (view : Host.View σ) (s : σ) :
    ((discover : StateM σ Settings).run s).1.Sound := by
  rw [run_discover view]
  split
  · exact sound_default
  · exact sound_firstOf s _

/-- A file that is named gives the settings in its text, if it can be read and they are sound, and
else none. -/
theorem load_eq_ok_iff (view : Host.View σ) {path : Path} {s : σ} :
    (∃ later, (load path : Attempt (StateM σ) Settings).run s = (.ok settings, later)) ↔
      ∃ text, Host.decoded (view.read s path) = .ok text ∧ ofText text = .ok settings := by
  have reads := Host.run_readText (view.run_read path s)
  simp only [load, Attempt.run_bind_eq_ok_iff, Attempt.run_ask_eq_ok_iff, reads]
  constructor
  · rintro ⟨later, text, between, read, rest⟩
    obtain ⟨readable, rfl⟩ := Prod.mk.inj read
    refine ⟨text, readable, ?_⟩
    cases held : ofText text with
    | error defect =>
      rw [held] at rest
      cases defect <;> cases congrArg Prod.fst rest
    | ok settings =>
      rw [held] at rest
      cases congrArg Prod.fst rest
      rfl
  · rintro ⟨text, readable, held⟩
    exact ⟨_, text, s, by rw [readable], by rw [held]; rfl⟩

theorem resolve_some_eq_ok_iff (view : Host.View σ) {path : Path} {s : σ} :
    (∃ later, (resolve (some path) : Attempt (StateM σ) Settings).run s = (.ok settings, later)) ↔
      ∃ text, Host.decoded (view.read s path) = .ok text ∧ ofText text = .ok settings := by
  simp only [resolve, Attempt.run_within_eq_ok_iff]
  exact load_eq_ok_iff view

/-- A command goes on with sound settings only, wherever they come from. A file that is named gives
settings if and only if it can be read and its text is accepted, and then it gives those of the
text. -/
theorem resolve_sound (view : Host.View σ) (named : Option Path) (s : σ) :
    (∀ settings later, (resolve named : Attempt (StateM σ) Settings).run s = (.ok settings, later) →
      settings.Sound) ∧
    ∀ path ∈ named, ∀ settings,
      (∃ later, (resolve named : Attempt (StateM σ) Settings).run s = (.ok settings, later)) ↔
        ∃ bytes text, view.read s path = .ok bytes ∧ String.fromUTF8? bytes = some text ∧
          ofText text = .ok settings := by
  constructor
  · intro settings later ran
    cases named with
    | some path =>
      obtain ⟨text, -, held⟩ := (resolve_some_eq_ok_iff view).mp ⟨later, ran⟩
      exact (ofText_eq_ok_iff.mp held).2
    | none =>
      cases congrArg Prod.fst ran
      exact sound_discover view s
  · rintro path ⟨⟩ settings
    rw [resolve_some_eq_ok_iff view]
    constructor
    · rintro ⟨text, readable, held⟩
      obtain ⟨bytes, read, decodes⟩ := Host.decoded_eq_ok_iff.mp readable
      exact ⟨bytes, text, read, decodes, held⟩
    · rintro ⟨bytes, text, read, decodes, held⟩
      exact ⟨text, Host.decoded_eq_ok_iff.mpr ⟨bytes, read, decodes⟩, held⟩

def sampleText : String := "[thresholds]\nmax_line_length = 50\n"

/-- Surroundings with one file, which holds settings. -/
def samplePlace : Surroundings :=
  { (default : Surroundings) with
    disk := { items := [(["short.toml"], .file sampleText.toUTF8)], room := none } }

theorem exists_ofText_sampleText :
    ∃ settings, ofText sampleText = .ok settings ∧ settings.thresholds.maxLineLength = 50 := by
  have limit : (ofText sampleText).toOption.map (·.thresholds.maxLineLength) = some 50 := by
    decide +kernel
  cases held : ofText sampleText with
  | error defect =>
    rw [held] at limit
    cases limit
  | ok settings =>
    rw [held] at limit
    exact ⟨settings, rfl, Option.some.inj limit⟩

theorem resolve_sound_samplePlace :
    ∃ settings later, (resolve (some ⟨"short.toml"⟩) : Attempt (StateM Surroundings) Settings).run
      samplePlace = (.ok settings, later) ∧ settings.thresholds.maxLineLength = 50 ∧
        settings.Sound := by
  obtain ⟨settings, held, limit⟩ := exists_ofText_sampleText
  have sound := resolve_sound Surroundings.view (some ⟨"short.toml"⟩) samplePlace
  obtain ⟨later, ran⟩ := (sound.2 _ rfl settings).mpr
    ⟨sampleText.toUTF8, sampleText, rfl, by decide +kernel, held⟩
  exact ⟨settings, later, ran, limit, sound.1 settings later ran⟩

end Settings

end SnippetAudit
