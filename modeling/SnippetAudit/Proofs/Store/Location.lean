import Mathlib.Data.List.Infix
import SnippetAudit.Proofs.Store.Disk
import SnippetAudit.Store.Host

/-!
The paths of places. The path of a place leads to it on any disk, the paths above it are those of
the places above it, and what is found there depends only on what is on the way.
-/

namespace SnippetAudit

open Text

/-- A name by which a path goes one step down: there is something in it, but no slash, and it
neither stays nor goes up. -/
structure ProperName (name : String) : Prop where
  some' : name.toList ≠ []
  plain : '/' ∉ name.toList
  here : name.toList ≠ ['.']
  parent : name.toList ≠ ['.', '.']

theorem ProperName.moves {name : String} (proper : ProperName name) :
    ¬(name.toList = [] ∨ name.toList = ['.']) :=
  not_or.mpr ⟨proper.some', proper.here⟩

namespace Surroundings

variable {location front : Location} {name : String}

theorem text_pathOf (location : Location) :
    (pathOf location).text.toList = '/' :: Text.join ['/'] (location.map String.toList) := by
  rw [pathOf, String.toList_append, String.toList_intercalate]
  rfl

theorem isAbsolute_pathOf (location : Location) : (pathOf location).isAbsolute = true := by
  rw [Path.isAbsolute, text_pathOf]
  rfl

theorem slices_pathOf (some' : location ≠ []) (proper : ∀ name ∈ location, ProperName name) :
    (pathOf location).slices = [] :: location.map String.toList := by
  have cut : ∀ piece ∈ location.map String.toList, '/' ∉ piece := by
    intro piece listed
    obtain ⟨name, member, rfl⟩ := List.mem_map.mp listed
    exact (proper name member).plain
  rw [Path.slices, text_pathOf, pieces_cons, if_pos rfl, pieces_join (by simpa using some') cut]

/-- Names are steps of a path wherever they stand in it. -/
theorem isStep_name (proper : ProperName name) (index : Nat) :
    Path.isStep (name.toList, index) = true := by
  simp [Path.isStep, proper.some', proper.here]

theorem parent?_pathOf_nil : (pathOf []).parent? = none := by
  decide

theorem reverse_zipIdx_names (front : Location) (name : String) :
    ([] :: (front ++ [name]).map String.toList).zipIdx.reverse =
      (name.toList, front.length + 1) :: ([] :: front.map String.toList).zipIdx.reverse := by
  rw [List.map_append, ← List.cons_append, List.zipIdx_append]
  simp

theorem eq_pathOf_of_join (some' : location ≠ []) :
    ⟨String.ofList (Text.join ['/'] ([] :: location.map String.toList))⟩ = pathOf location := by
  obtain ⟨first, later, rfl⟩ := List.exists_cons_of_ne_nil some'
  have cut := text_pathOf (first :: later)
  rw [List.map_cons] at cut ⊢
  rw [join_cons_cons, List.nil_append, List.singleton_append, ← cut, String.ofList_toList]

theorem parent?_pathOf_concat (proper : ∀ other ∈ front ++ [name], ProperName other) :
    (pathOf (front ++ [name])).parent? = some (pathOf front) := by
  have last : Path.isStep (name.toList, front.length + 1) = true :=
    isStep_name (proper name (by simp)) _
  rw [Path.parent?, slices_pathOf (by simp) proper, reverse_zipIdx_names,
    List.dropWhile_cons_of_neg (by simp [last]), isAbsolute_pathOf]
  dsimp only
  cases front using List.reverseRecOn with
  | nil => rfl
  | append_singleton front second =>
    have step : Path.isStep (second.toList, front.length + 1) = true :=
      isStep_name (proper second (by simp)) _
    have kept := reverse_zipIdx_names front second
    rw [kept, List.dropWhile_cons_of_neg (by simp [step]), ← kept]
    split
    · rename_i none'
      rw [kept] at none'
      cases none'
    · rw [List.reverse_reverse, List.zipIdx_map_fst, eq_pathOf_of_join (by simp)]

/-- The paths above the path of a place are those of the places above it. -/
theorem ancestors_pathOf (proper : ∀ name ∈ location, ProperName name) (count : Nat) :
    (pathOf location).ancestors count = (location.inits.reverse.take count).map pathOf := by
  induction count generalizing location with
  | zero => rfl
  | succ count ih =>
    rw [Path.ancestors]
    cases location using List.reverseRecOn with
    | nil =>
      rw [parent?_pathOf_nil]
      simp
    | append_singleton front name =>
      rw [parent?_pathOf_concat proper]
      dsimp only
      rw [ih fun other member => proper other (List.mem_append_left _ member), List.inits_append]
      simp

theorem pathOf_concat (some' : front ≠ []) :
    pathOf (front ++ [name]) = ⟨(pathOf front).text ++ "/" ++ name⟩ := by
  rw [pathOf, pathOf, String.intercalate_append_of_ne_nil some' (List.cons_ne_nil name []),
    String.intercalate_singleton]
  simp only [String.append_assoc]

theorem getLast?_pathOf (some' : location ≠ []) (proper : ∀ name ∈ location, ProperName name) :
    (pathOf location).text.toList.getLast? ≠ some '/' := by
  obtain ⟨front, name, rfl⟩ := (List.eq_nil_or_concat' location).resolve_left some'
  have named := proper name (by simp)
  have ending : ∃ before, (pathOf (front ++ [name])).text.toList = before ++ name.toList := by
    by_cases empty : front = []
    · subst empty
      exact ⟨['/'], by simp [pathOf]⟩
    · exact ⟨((pathOf front).text ++ "/").toList, by rw [pathOf_concat empty, String.toList_append]⟩
  obtain ⟨before, cut⟩ := ending
  rw [cut, List.getLast?_append, List.getLast?_eq_some_getLast named.some', Option.some_or]
  intro last
  have member := List.getLast_mem named.some'
  rw [Option.some.inj last] at member
  exact named.plain member

/-- The path of a place with a name behind it is that of the place with this name in it. -/
theorem join_pathOf (proper : ∀ name ∈ location, ProperName name) {later : Path}
    (relative : later.isAbsolute = false) :
    (pathOf location).join later = pathOf (location ++ [later.text]) := by
  have full : (pathOf location).text.isEmpty = false := by
    simp [pathOf]
  rw [Path.join, relative, full, Bool.or_self, if_neg Bool.false_ne_true]
  by_cases empty : location = []
  · subst empty
    simp [pathOf]
  · rw [if_neg (getLast?_pathOf empty proper), pathOf_concat empty]

end Surroundings

namespace Disk

open Surroundings (pathOf isAbsolute_pathOf slices_pathOf)

variable {disk other : Disk} {folder origin location : Location} {bytes : ByteArray}

/-- Names lead down from anywhere. -/
theorem goAlong_names (proper : ∀ name ∈ location, ProperName name) :
    goAlong origin (location.map String.toList) = origin ++ location := by
  induction location generalizing origin with
  | nil => simp [goAlong]
  | cons name location ih =>
    obtain ⟨named, rest⟩ := List.forall_mem_cons.mp proper
    rw [List.map_cons, goAlong, if_neg named.moves, if_neg named.parent, ih rest,
      String.ofList_toList, List.append_assoc, List.singleton_append]

/-- Where names lead depends only on what is on the way. -/
theorem walk_names_congr (proper : ∀ name ∈ location, ProperName name)
    (agree : ∀ place, place <+: origin ++ location → other.get? place = disk.get? place) :
    other.walk origin (location.map String.toList) =
      disk.walk origin (location.map String.toList) := by
  induction location generalizing origin with
  | nil => rfl
  | cons name location ih =>
    obtain ⟨named, rest⟩ := List.forall_mem_cons.mp proper
    have later : ∀ place, place <+: (origin ++ [name]) ++ location →
        other.get? place = disk.get? place := by
      simpa using agree
    simp only [List.map_cons, walk, agree origin (List.prefix_append origin _), named.moves,
      named.parent, if_false, String.ofList_toList, ih rest later]

theorem locate_pathOf (some' : location ≠ []) (proper : ∀ name ∈ location, ProperName name) :
    disk.locate folder (pathOf location) =
      match refusal? (pathOf location) with
      | some fault => .error fault
      | none => disk.walk [] (location.map String.toList) := by
  rw [locate, start, isAbsolute_pathOf, slices_pathOf some' proper]
  rfl

theorem eq_of_locate_pathOf (some' : location ≠ []) (proper : ∀ name ∈ location, ProperName name)
    {place : Location} (found : disk.locate folder (pathOf location) = .ok place) :
    place = location := by
  rw [locate_pathOf some' proper] at found
  split at found
  · cases found
  · have same := eq_goAlong_of_walk found
    rwa [goAlong_names proper, List.nil_append] at same

/-- The bytes to be read under the path of a place are those of the file at this place. -/
theorem get?_of_read_pathOf (some' : location ≠ []) (proper : ∀ name ∈ location, ProperName name)
    (read : disk.read folder (pathOf location) = .ok bytes) :
    disk.get? location = some (.file bytes) := by
  rw [Disk.read, find] at read
  cases found : disk.locate folder (pathOf location) with
  | error fault =>
    rw [found] at read
    cases read
  | ok place =>
    obtain rfl := eq_of_locate_pathOf some' proper found
    rw [found] at read
    simp only [Except.bind] at read
    cases there : disk.get? place with
    | none =>
      rw [there] at read
      cases read
    | some item =>
      rw [there] at read
      cases item with
      | folder => cases read
      | file bytes =>
        cases read
        rfl

/-- What is to be read under the path of a place depends only on what is there and on the way. -/
theorem read_pathOf_congr (some' : location ≠ []) (proper : ∀ name ∈ location, ProperName name)
    (agree : ∀ place, place <+: location → other.get? place = disk.get? place) :
    other.read folder (pathOf location) = disk.read folder (pathOf location) := by
  have way : other.walk [] (location.map String.toList) =
      disk.walk [] (location.map String.toList) := walk_names_congr proper agree
  have same : other.locate folder (pathOf location) = disk.locate folder (pathOf location) := by
    rw [locate_pathOf some' proper, locate_pathOf some' proper, way]
  rw [Disk.read, Disk.read, find, find, same]
  cases found : disk.locate folder (pathOf location) with
  | error fault => rfl
  | ok place =>
    rw [eq_of_locate_pathOf some' proper found]
    simp only [Except.bind, agree location (List.prefix_refl location)]

end Disk

end SnippetAudit
