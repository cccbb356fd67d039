import SnippetAudit.Proofs.Store.Location

/-!
The components of paths. They settle the place that a path names, and names behind a path are
components behind its own, whatever slashes and dots the path is written with.
-/

namespace SnippetAudit

open Text

namespace Path

/-- The steps among some pieces of a path, given how many pieces are before them. -/
def steps (index : Nat) (slices : List (List Char)) : List Component :=
  ((slices.zipIdx index).filter isStep).map fun slice => .ofSlice slice.1

/-- Where a step leads from a place. -/
def Component.follow (origin : Location) : Component → Location
  | root => []
  | here => origin
  | parent => origin.dropLast
  | name text => origin ++ [text]

variable {path other : Path} {names : List String}

theorem components_eq (path : Path) :
    path.components = (if path.isAbsolute then [.root] else []) ++ steps 0 path.slices := rfl

theorem steps_append (index : Nat) (front back : List (List Char)) :
    steps index (front ++ back) = steps index front ++ steps (index + front.length) back := by
  rw [steps, List.zipIdx_append, List.filter_append, List.map_append]
  rfl

theorem steps_cons (index : Nat) (slice : List Char) (slices : List (List Char)) :
    steps index (slice :: slices) =
      (if isStep (slice, index) then [.ofSlice slice] else []) ++ steps (index + 1) slices := by
  rw [steps, List.zipIdx_cons, List.filter_cons]
  split <;> rfl

theorem Component.ofSlice_toList {name : String} (proper : ProperName name) :
    Component.ofSlice name.toList = .name name := by
  rw [ofSlice, if_neg proper.here, if_neg proper.parent, String.ofList_toList]

theorem steps_names (index : Nat) (proper : ∀ name ∈ names, ProperName name) :
    steps index (names.map String.toList) = names.map .name := by
  induction names generalizing index with
  | nil => rfl
  | cons name names ih =>
    obtain ⟨first, others⟩ := List.forall_mem_cons.mp proper
    rw [List.map_cons, steps_cons, if_pos (Surroundings.isStep_name first index),
      Component.ofSlice_toList first, ih (index + 1) others]
    rfl

theorem toList_intercalate_names (names : List String) :
    ("/".intercalate names).toList = Text.join ['/'] (names.map String.toList) := by
  rw [String.toList_intercalate]
  rfl

theorem slices_names (some' : names ≠ []) (proper : ∀ name ∈ names, ProperName name) :
    pieces '/' ("/".intercalate names).toList = names.map String.toList := by
  rw [toList_intercalate_names]
  refine pieces_join (by simpa using some') fun piece listed => ?_
  obtain ⟨name, member, rfl⟩ := List.mem_map.mp listed
  exact (proper name member).plain

/-- Names one behind the other start from wherever they are put. -/
theorem isAbsolute_names (proper : ∀ name ∈ names, ProperName name) :
    isAbsolute ⟨"/".intercalate names⟩ = false := by
  rw [isAbsolute, toList_intercalate_names]
  cases names with
  | nil => rfl
  | cons name names =>
    have named := proper name List.mem_cons_self
    obtain ⟨c, rest, spelt⟩ := List.exists_cons_of_ne_nil named.some'
    have noSlash : c ≠ '/' := by
      rintro rfl
      exact named.plain (by rw [spelt]; exact List.mem_cons_self)
    have start : (Text.join ['/'] ((name :: names).map String.toList)).head? = some c := by
      rw [List.map_cons, spelt]
      cases names with
      | nil => rfl
      | cons second later =>
        rw [List.map_cons, join_cons_cons]
        rfl
    rw [start]
    exact beq_false_of_ne fun same => noSlash (Option.some.inj same)

/-- Names put behind a path are components behind those of the path. -/
theorem components_join_names (full : path.text ≠ "") (some' : names ≠ [])
    (proper : ∀ name ∈ names, ProperName name) :
    (path.join ⟨"/".intercalate names⟩).components = path.components ++ names.map .name := by
  -- with a slash behind what has to be there of the path, its pieces and the names are all pieces
  have joined (front : List Char) (solid : path.text.toList.head? = (front ++ ['/']).head?)
      (same : steps 0 (pieces '/' front) = steps 0 path.slices) {whole : Path}
      (text : whole.text.toList = front ++ '/' :: ("/".intercalate names).toList) :
      whole.components = path.components ++ names.map .name := by
    have absolute : whole.isAbsolute = path.isAbsolute := by
      rw [isAbsolute, isAbsolute, text, solid]
      cases front <;> rfl
    rw [components_eq, components_eq, absolute, slices, text, pieces_append_cons,
      slices_names some' proper, steps_append, same, steps_names _ proper, List.append_assoc]
  have filled : path.text.toList ≠ [] := fun none => full (String.toList_eq_nil_iff.mp none)
  rw [join, isAbsolute_names proper, Bool.false_or, if_neg (by simpa using full)]
  split
  · rename_i slash
    obtain ⟨front, text⟩ := List.getLast?_eq_some_iff.mp slash
    refine joined front (congrArg List.head? text) ?_ ?_
    · rw [slices, text, pieces_append_cons, steps_append]
      exact (List.append_nil _).symm
    · rw [String.toList_append, text, List.append_assoc, List.singleton_append]
  · refine joined path.text.toList ?_ rfl ?_
    · rw [List.head?_append, List.head?_eq_some_head filled, Option.some_or]
    · rw [String.toList_append, String.toList_append, List.append_assoc]
      rfl

end Path

namespace Disk

open SnippetAudit.Path

variable {path other : Path} {names : List String}

theorem goAlong_eq_foldl (origin : Location) (index : Nat) (slices : List (List Char)) :
    goAlong origin slices = (steps index slices).foldl Component.follow origin := by
  induction slices generalizing origin index with
  | nil => rfl
  | cons slice slices ih =>
    rw [goAlong, steps_cons, List.foldl_append]
    by_cases empty : slice = []
    · subst empty
      exact ih origin (index + 1)
    · by_cases dot : slice = ['.']
      · subst dot
        rw [if_pos (Or.inr rfl), ih origin (index + 1)]
        split <;> rfl
      · have step : isStep (slice, index) = true := by
          simp [isStep, empty, dot]
        rw [if_neg (not_or.mpr ⟨empty, dot⟩), if_pos step, Component.ofSlice, if_neg dot]
        split
        · exact ih origin.dropLast (index + 1)
        · exact ih (origin ++ [String.ofList slice]) (index + 1)

/-- The place that a path names is where its components lead to. -/
theorem aim_eq_foldl (folder : Location) (path : Path) :
    aim folder path = path.components.foldl Component.follow folder := by
  rw [aim, start, components_eq, List.foldl_append, goAlong_eq_foldl _ 0]
  split <;> rfl

theorem foldl_follow_names (origin : Location) (names : List String) :
    (names.map Component.name).foldl Component.follow origin = origin ++ names := by
  induction names generalizing origin with
  | nil => exact (List.append_nil origin).symm
  | cons name names ih =>
    rw [List.map_cons, List.foldl_cons, ih, Component.follow, List.append_assoc,
      List.singleton_append]

/-- With names behind its components a path names the place that these lead down to. -/
theorem aim_of_components_append (folder : Location)
    (behind : other.components = path.components ++ names.map .name) :
    aim folder other = aim folder path ++ names := by
  rw [aim_eq_foldl, aim_eq_foldl, behind, List.foldl_append, foldl_follow_names]

end Disk

end SnippetAudit
