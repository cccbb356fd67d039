import SnippetAudit.Proofs.Command.Configure
import SnippetAudit.Proofs.Store.Location

/-!
Which of the folders on the way up settings come from. They come from the nearest file of the usual
name that can be read, and what lies beyond it has no influence. What cannot be read is passed over
as if it were not there.
-/

namespace SnippetAudit.Settings

open Surroundings (pathOf ancestors_pathOf join_pathOf)

variable {s t : Surroundings} {place other : Location} {nearer further : List Location}
  {text : String}

/-- The settings that are found in surroundings. -/
def discovered (s : Surroundings) : Settings :=
  ((discover : StateM Surroundings Settings).run s).1

/-- The folders that are searched for settings: the current one and those above it, the nearest
first. -/
def searched (s : Surroundings) : List Location :=
  s.folder.inits.reverse.take searchDepth

/-- The place where settings of a folder are looked for. -/
def entryOf (place : Location) : Location :=
  place ++ [fileName.text]

/-- The text of the settings in a folder, if there are any and they can be read. -/
def textIn? (s : Surroundings) (place : Location) : Option String :=
  Surroundings.view.text? s (pathOf (entryOf place))

/-- Surroundings with the same current folder, and with the same in a folder and on the way to it.
Folders above it may hold anything else. -/
structure SameFrom (place : Location) (s t : Surroundings) : Prop where
  folder : t.folder = s.folder
  disk : ∀ location, location <+: place ∨ place <+: location →
    t.disk.get? location = s.disk.get? location

theorem entryOf_ne_nil (place : Location) : entryOf place ≠ [] :=
  List.append_ne_nil_of_right_ne_nil place (List.cons_ne_nil _ [])

theorem prefix_of_mem_searched (searches : place ∈ searched s) : place <+: s.folder :=
  (List.mem_inits _ _).mp (List.mem_reverse.mp (List.mem_of_mem_take searches))

theorem proper_entryOf (proper : ∀ name ∈ s.folder, ProperName name)
    (above : place <+: s.folder) : ∀ name ∈ entryOf place, ProperName name := by
  intro name member
  rcases List.mem_append.mp member with inside | last
  · exact proper name (above.mem inside)
  · rw [List.mem_singleton.mp last]
    exact ⟨by decide, by decide, by decide, by decide⟩

theorem candidates_pathOf (proper : ∀ name ∈ s.folder, ProperName name) :
    candidates (pathOf s.folder) = (searched s).map fun place => pathOf (entryOf place) := by
  rw [candidates, ancestors_pathOf proper, List.map_map]
  refine List.map_congr_left fun place searches => ?_
  have above := prefix_of_mem_searched searches
  exact join_pathOf (fun name member => proper name (above.mem member)) (by decide)

theorem discovered_eq (proper : ∀ name ∈ s.folder, ProperName name) :
    discovered s = ((searched s).findSome? (textIn? s)).elim {} orDefault := by
  rw [discovered, run_discover Surroundings.view]
  change firstOf Surroundings.view s (candidates (pathOf s.folder)) = _
  rw [firstOf, candidates_pathOf proper, List.findSome?_map]
  rfl

/-- Nothing can be read where there is nothing. -/
theorem textIn?_eq_none (proper : ∀ name ∈ s.folder, ProperName name) (above : place <+: s.folder)
    (nothing : s.disk.get? (entryOf place) = none) : textIn? s place = none := by
  rw [textIn?, Host.View.text?]
  cases read : Surroundings.view.read s (pathOf (entryOf place)) with
  | error fault => rfl
  | ok bytes =>
    have there := Disk.get?_of_read_pathOf (entryOf_ne_nil place) (proper_entryOf proper above) read
    rw [nothing] at there
    cases there

theorem textIn?_congr (proper : ∀ name ∈ s.folder, ProperName name) (same : SameFrom place s t)
    (below : place <+: other) (above : other <+: s.folder) : textIn? t other = textIn? s other := by
  have agree : ∀ location, location <+: entryOf other →
      t.disk.get? location = s.disk.get? location := by
    intro location before
    have inside : place <+: entryOf other := below.trans (List.prefix_append other _)
    exact same.disk location (List.prefix_or_prefix_of_prefix before inside)
  rw [textIn?, textIn?, Host.View.text?, Host.View.text?]
  change (Host.decoded (t.disk.read t.folder _)).toOption =
    (Host.decoded (s.disk.read s.folder _)).toOption
  rw [same.folder,
    Disk.read_pathOf_congr (entryOf_ne_nil other) (proper_entryOf proper above) agree]

theorem pairwise_inits (location : Location) : location.inits.Pairwise (· <+: ·) := by
  induction location using List.reverseRecOn with
  | nil => simp
  | append_singleton front name ih =>
    have last : (front ++ [name]).inits = front.inits ++ [front ++ [name]] := by
      simp [List.inits_append]
    rw [last, List.pairwise_append]
    refine ⟨ih, List.pairwise_singleton _ _, fun inner member outer only => ?_⟩
    rw [List.mem_singleton.mp only]
    exact ((List.mem_inits _ _).mp member).trans (List.prefix_append front [name])

/-- Of the folders that are searched each lies in those behind it. -/
theorem searched_pairwise (s : Surroundings) :
    (searched s).Pairwise fun inner outer => outer <+: inner :=
  (List.pairwise_reverse.mpr (pairwise_inits s.folder)).sublist (List.take_sublist _ _)

theorem discovered_of_split (proper : ∀ name ∈ s.folder, ProperName name)
    (split : searched s = nearer ++ place :: further)
    (nothing : ∀ other ∈ nearer, textIn? s other = none) :
    discovered s =
      ((textIn? s place).or (further.findSome? (textIn? s))).elim {} orDefault := by
  rw [discovered_eq proper, split, List.findSome?_append,
    List.findSome?_eq_none_iff.mpr nothing, Option.none_or, List.findSome?_cons]
  cases textIn? s place <;> rfl

/-- The settings that are found, given a folder such that none of those searched before it has an
entry for them. If its entry can be read, they come from there, and nothing that is further up has
any influence. If its entry cannot be read, it is passed over, and they come from the nearest one
further up that can. -/
theorem discovered_nearest (proper : ∀ name ∈ s.folder, ProperName name) :
    ((∀ place ∈ searched s, s.disk.get? (entryOf place) = none) → discovered s = {}) ∧
    ∀ nearer place further, searched s = nearer ++ place :: further →
      (∀ other ∈ nearer, s.disk.get? (entryOf other) = none) →
        (∀ text, textIn? s place = some text →
          discovered s = orDefault text ∧
          ∀ t, SameFrom place s t → discovered t = orDefault text) ∧
        (textIn? s place = none →
          discovered s = (further.findSome? (textIn? s)).elim {} orDefault) := by
  have unread : ∀ other ∈ searched s, s.disk.get? (entryOf other) = none → textIn? s other = none :=
    fun other searches => textIn?_eq_none proper (prefix_of_mem_searched searches)
  constructor
  · intro nothing
    rw [discovered_eq proper, List.findSome?_eq_none_iff.mpr fun place searches =>
      unread place searches (nothing place searches)]
    rfl
  · intro nearer place further split nothing
    have searches : ∀ other ∈ nearer, other ∈ searched s := by
      intro other member
      rw [split]
      exact List.mem_append_left _ member
    have above : place <+: s.folder := prefix_of_mem_searched (by rw [split]; simp)
    have passed : ∀ other ∈ nearer, textIn? s other = none :=
      fun other member => unread other (searches other member) (nothing other member)
    refine ⟨fun text readable => ⟨?_, fun t same => ?_⟩, fun unreadable => ?_⟩
    · rw [discovered_of_split proper split passed, readable]
      rfl
    · -- the entries up to this one are the same in the other surroundings
      have inner : ∀ other ∈ nearer, place <+: other := by
        have nested := searched_pairwise s
        rw [split, List.pairwise_append] at nested
        exact fun other member => nested.2.2 other member place List.mem_cons_self
      have passedThere : ∀ other ∈ nearer, textIn? t other = none := by
        intro other member
        rw [textIn?_congr proper same (inner other member)
          (prefix_of_mem_searched (searches other member))]
        exact passed other member
      have splitThere : searched t = nearer ++ place :: further := by
        rw [searched, same.folder]
        exact split
      rw [discovered_of_split (by rwa [same.folder]) splitThere passedThere,
        textIn?_congr proper same (List.prefix_refl place) above, readable]
      rfl
    · rw [discovered_of_split proper split passed, unreadable]
      rfl

/-- Surroundings with settings in the root, and in the current folder with an entry that is no
text. -/
def coveredPlace : Surroundings :=
  { (default : Surroundings) with
    disk :=
      { items := [([".codesense.toml"], .file sampleText.toUTF8), (["sub"], .folder),
          (["sub", ".codesense.toml"], .file ⟨#[255]⟩)]
        room := none }
    folder := ["sub"] }

/-- The settings in the root apply, though there is an entry in a nearer folder. -/
theorem discovered_nearest_coveredPlace :
    coveredPlace.disk.get? (entryOf ["sub"]) = some (.file ⟨#[255]⟩) ∧
      (discovered coveredPlace).thresholds.maxLineLength = 50 ∧
      ({} : Settings).thresholds.maxLineLength = 100 := by
  have proper : ∀ name ∈ coveredPlace.folder, ProperName name := by
    intro name member
    rw [List.mem_singleton.mp member]
    exact ⟨by decide, by decide, by decide, by decide⟩
  have unreadable : textIn? coveredPlace ["sub"] = none := by decide +kernel
  have readable : textIn? coveredPlace [] = some sampleText := by decide +kernel
  have passed := ((discovered_nearest proper).2 [] ["sub"] [[]] rfl nofun).2 unreadable
  obtain ⟨settings, held, limit⟩ := exists_ofText_sampleText
  refine ⟨rfl, ?_, rfl⟩
  rw [passed, List.findSome?_cons, readable, Option.elim_some, orDefault, held]
  exact limit

end SnippetAudit.Settings
