import Mathlib.Data.List.DropRight
import SnippetAudit.Proofs.Path.Components
import SnippetAudit.Proofs.Path.Order

/-!
The way up from a path. A step up leaves out the last component, and with it the end of the path as
it is written, whatever slashes and dots there are between the components. So no path is met twice,
and the way ends for every path: at the root if the path starts there, and else at the empty path.
-/

namespace SnippetAudit.Path

open Text

variable {path above : Path} {levels : Nat} {slices front back : List (List Char)}

/-- How many components a path has besides the root. -/
def depth (path : Path) : Nat :=
  path.components.countP (· != .root)

/-- The path that is a number of levels above another, if there are so many. -/
def above? : Nat → Path → Option Path
  | 0, path => some path
  | levels + 1, path => path.parent?.bind (above? levels)

/-- A path without the last components of another. As it is written, the other begins with it. -/
structure Shortened (path above : Path) (levels : Nat) : Prop where
  components : above.components = path.components.rdrop levels
  depth : above.depth + levels = path.depth
  absolute : above.isAbsolute = path.isAbsolute
  spelt : above.text.toList <+: path.text.toList

theorem root_not_mem_steps (index : Nat) (slices : List (List Char)) :
    Component.root ∉ steps index slices := by
  intro member
  obtain ⟨slice, -, same⟩ := List.mem_map.mp member
  rw [Component.ofSlice] at same
  split at same
  · cases same
  · split at same <;> cases same

theorem depth_eq (path : Path) : path.depth = (steps 0 path.slices).length := by
  have noRoot : ∀ step ∈ steps 0 path.slices, (step != .root) = true :=
    fun step member => bne_iff_ne.mpr fun same => root_not_mem_steps 0 path.slices (same ▸ member)
  rw [depth, components_eq, List.countP_append, List.countP_eq_length.mpr noRoot]
  split <;> simp

theorem depth_le_length (path : Path) : path.depth ≤ path.components.length :=
  List.countP_le_length

theorem steps_eq_nil_iff {index : Nat} :
    steps index slices = [] ↔ ∀ slice ∈ slices.zipIdx index, (!isStep slice) = true := by
  rw [steps, List.map_eq_nil_iff, List.filter_eq_nil_iff]
  simp only [Bool.not_eq_true', Bool.not_eq_true]

theorem dropWhile_reverse_eq_nil_iff :
    slices.zipIdx.reverse.dropWhile (!isStep ·) = [] ↔ steps 0 slices = [] := by
  rw [dropWhile_eq_nil_iff, steps_eq_nil_iff]
  simp only [List.mem_reverse]

/-- Numbered pieces, from the last one that is a step back to the first. -/
theorem exists_last_step {last : List Char × Nat} {before : List (List Char × Nat)}
    (left : slices.zipIdx.reverse.dropWhile (!isStep ·) = last :: before) :
    ∃ front slice back, slices = front ++ slice :: back ∧ before = front.zipIdx.reverse ∧
      last :: before = (front ++ [slice]).zipIdx.reverse ∧
      steps 0 slices = steps 0 (front ++ [slice]) ∧
      steps 0 (front ++ [slice]) = steps 0 front ++ [.ofSlice slice] := by
  have whole := List.takeWhile_append_dropWhile (p := (!isStep ·)) (l := slices.zipIdx.reverse)
  rw [left, eq_comm, List.reverse_eq_append_iff, List.reverse_cons, List.append_assoc,
    List.singleton_append] at whole
  obtain ⟨front, rest, rfl, reversed, cut⟩ := List.zipIdx_eq_append_iff.mp whole
  obtain ⟨slice, back, rfl, rfl, passed⟩ := List.zipIdx_eq_cons_iff.mp cut.symm
  have isLast : isStep (slice, 0 + front.length) = true := by
    have stop := List.head?_dropWhile_not (!isStep ·) (front ++ slice :: back).zipIdx.reverse
    rw [left] at stop
    simpa using stop
  have noFurther : steps (0 + front.length + 1) back = [] := by
    rw [steps_eq_nil_iff, ← passed]
    intro slice member
    exact List.mem_takeWhile_imp (p := (!isStep ·)) (List.mem_reverse.mp member)
  have way : steps 0 (front ++ [slice]) = steps 0 front ++ [.ofSlice slice] := by
    rw [steps_append, steps_cons, if_pos isLast]
    rfl
  refine ⟨front, slice, back, rfl, ?_, ?_, ?_, way⟩
  · rw [← reversed, List.reverse_reverse]
  · rw [List.zipIdx_append, ← reversed, List.reverse_append, List.reverse_reverse]
    rfl
  · rw [way, steps_append, steps_cons, if_pos isLast, noFurther, List.append_nil]

theorem rdrop_components (front : List (List Char)) {last : Component}
    (way : steps 0 path.slices = steps 0 front ++ [last]) :
    path.components.rdrop 1 = (if path.isAbsolute then [.root] else []) ++ steps 0 front := by
  rw [components_eq, way, ← List.append_assoc, List.rdrop_concat_succ, List.rdrop_zero]

namespace Shortened

theorem trans {between : Path} {more : Nat} (first : Shortened path between levels)
    (second : Shortened between above more) : Shortened path above (levels + more) where
  components := by rw [second.components, first.components, List.rdrop_add]
  depth := by
    have lower := first.depth
    have upper := second.depth
    omega
  absolute := second.absolute.trans first.absolute
  spelt := second.spelt.trans first.spelt

/-- The first pieces of a path, joined again, up to its last step but one. -/
theorem of_slices {last : Component} (cut : path.slices = front ++ back) (more : back ≠ [])
    (some' : steps 0 front ≠ []) (way : steps 0 path.slices = steps 0 front ++ [last]) :
    Shortened path ⟨String.ofList (Text.join ['/'] front)⟩ 1 := by
  have filled : front ≠ [] := by
    rintro rfl
    exact some' rfl
  have text : (Text.join ['/'] front ++ ['/']) ++ Text.join ['/'] back = path.text.toList := by
    rw [← join_append ['/'] filled more, ← cut, slices, join_pieces]
  have plain : ∀ piece ∈ front, '/' ∉ piece := by
    intro piece listed
    have inPath : piece ∈ path.slices := by
      rw [cut]
      exact List.mem_append_left back listed
    exact separator_not_mem_pieces inPath
  have sliced : slices ⟨String.ofList (Text.join ['/'] front)⟩ = front := by
    rw [slices, String.toList_ofList, pieces_join filled plain]
  -- the slash behind the root is kept: with a step among them the pieces are not one empty piece
  have written : Text.join ['/'] front ≠ [] := by
    intro empty
    rw [slices, String.toList_ofList, empty] at sliced
    rw [← sliced] at some'
    exact some' rfl
  have absolute : isAbsolute ⟨String.ofList (Text.join ['/'] front)⟩ = path.isAbsolute := by
    rw [isAbsolute, isAbsolute, String.toList_ofList, ← text, List.append_assoc, List.head?_append,
      List.head?_eq_some_head written, Option.some_or]
  refine ⟨?_, ?_, absolute, ?_⟩
  · rw [rdrop_components front way, components_eq, absolute, sliced]
  · rw [depth_eq, depth_eq, sliced, way, List.length_append, List.length_singleton]
  · rw [String.toList_ofList, ← text, List.append_assoc]
    exact List.prefix_append _ _

/-- Without its only step a path is the root or the empty path. -/
theorem of_last {last : Component} (way : steps 0 path.slices = [last]) :
    Shortened path ⟨if path.isAbsolute then "/" else ""⟩ 1 := by
  have rest : path.components.rdrop 1 = if path.isAbsolute then [.root] else [] :=
    (rdrop_components [] way).trans (List.append_nil _)
  have deep : path.depth = 1 := by
    rw [depth_eq, way, List.length_singleton]
  cases absolute : path.isAbsolute with
  | false =>
    rw [absolute] at rest
    exact ⟨rest.symm, deep.symm, absolute.symm, List.nil_prefix⟩
  | true =>
    rw [absolute] at rest
    obtain ⟨later, text⟩ := List.head?_eq_some_iff.mp (beq_iff_eq.mp absolute)
    exact ⟨rest.symm, deep.symm, absolute.symm, later, text.symm⟩

end Shortened

theorem parent?_of_depth_eq_zero (flat : path.depth = 0) : path.parent? = none := by
  rw [depth_eq, List.length_eq_zero_iff, ← dropWhile_reverse_eq_nil_iff] at flat
  rw [parent?, flat]

/-- From every path with a component besides the root there is a step up. -/
theorem exists_parent? (deep : path.depth ≠ 0) :
    ∃ above, path.parent? = some above ∧ Shortened path above 1 := by
  cases left : path.slices.zipIdx.reverse.dropWhile (!isStep ·) with
  | nil =>
    rw [depth_eq, dropWhile_reverse_eq_nil_iff.mp left] at deep
    exact absurd rfl deep
  | cons last before =>
    obtain ⟨front, slice, back, cut, rfl, -, same, way⟩ := exists_last_step left
    rw [way] at same
    -- whether there is another step in front of the last one decides what is left
    cases kept : front.zipIdx.reverse.dropWhile (!isStep ·) with
    | nil =>
      rw [dropWhile_reverse_eq_nil_iff.mp kept] at same
      refine ⟨_, ?_, .of_last same⟩
      simp only [parent?, left, kept]
    | cons second further =>
      obtain ⟨shown, piece, hidden, rfl, -, marked, sameThere, wayThere⟩ := exists_last_step kept
      rw [sameThere] at same
      have cutThere : path.slices = (shown ++ [piece]) ++ (hidden ++ slice :: back) := by
        rw [cut, List.append_assoc, List.append_assoc]
        rfl
      have steps' : steps 0 (shown ++ [piece]) ≠ [] := by
        rw [wayThere]
        exact List.append_ne_nil_of_right_ne_nil _ (List.cons_ne_nil _ [])
      refine ⟨_, ?_, .of_slices cutThere (by simp) steps' same⟩
      simp only [parent?, left, kept]
      rw [marked, List.reverse_reverse, List.zipIdx_map_fst]

/-- There are as many levels above a path as it has components besides the root, and each of them
leaves out one component more. -/
theorem above?_cases (path : Path) (levels : Nat) :
    (path.depth < levels ∧ path.above? levels = none) ∨
      ∃ above, path.above? levels = some above ∧ Shortened path above levels := by
  induction levels generalizing path with
  | zero =>
    exact Or.inr ⟨path, rfl, (List.rdrop_zero _).symm, rfl, rfl, List.prefix_refl _⟩
  | succ levels ih =>
    rw [above?]
    by_cases flat : path.depth = 0
    · rw [parent?_of_depth_eq_zero flat]
      exact Or.inl ⟨by omega, rfl⟩
    · obtain ⟨between, up, step⟩ := exists_parent? flat
      have balance := step.depth
      rw [up, Option.bind_some]
      rcases ih between with ⟨beyond, nothing⟩ | ⟨above, found, further⟩
      · exact Or.inl ⟨by omega, nothing⟩
      · exact Or.inr ⟨above, found, Nat.add_comm 1 levels ▸ step.trans further⟩

theorem exists_above? (enough : levels ≤ path.depth) :
    ∃ above, path.above? levels = some above ∧ Shortened path above levels :=
  (above?_cases path levels).resolve_left fun ⟨beyond, _⟩ => absurd enough (Nat.not_le.mpr beyond)

theorem above?_eq_none_iff : path.above? levels = none ↔ path.depth < levels := by
  rcases above?_cases path levels with ⟨beyond, nothing⟩ | ⟨above, found, shorter⟩
  · exact iff_of_true nothing beyond
  · have balance := shorter.depth
    rw [found]
    exact iff_of_false (Option.some_ne_none above) (by omega)

theorem Shortened.of_above? (found : path.above? levels = some above) :
    Shortened path above levels := by
  rcases above?_cases path levels with ⟨-, nothing⟩ | ⟨other, there, shorter⟩
  · rw [nothing] at found
    cases found
  · rw [there] at found
    exact Option.some.inj found ▸ shorter

/-- The paths that are listed are the first ones on the way up. -/
theorem getElem?_ancestors (path : Path) (count index : Nat) :
    (path.ancestors count)[index]? = if index < count then path.above? index else none := by
  induction count generalizing path index with
  | zero => rfl
  | succ count ih =>
    rw [ancestors]
    cases index with
    | zero => rfl
    | succ index =>
      rw [List.getElem?_cons_succ, above?]
      cases path.parent? with
      | none => simp
      | some above => simp only [ih above index, Nat.add_lt_add_iff_right, Option.bind_some]

theorem map_components_ancestors (path : Path) (count : Nat) :
    (path.ancestors count).map components =
      (List.range (min count (path.depth + 1))).map path.components.rdrop := by
  refine List.ext_getElem? fun index => ?_
  rw [List.getElem?_map, List.getElem?_map, getElem?_ancestors]
  by_cases listed : index < min count (path.depth + 1)
  · have enough : index ≤ path.depth := by omega
    obtain ⟨above, found, shorter⟩ := exists_above? enough
    rw [if_pos (by omega), found, List.getElem?_range listed, Option.map_some, Option.map_some,
      shorter.components]
  · have nothing : (List.range (min count (path.depth + 1)))[index]? = none := by
      rw [List.getElem?_eq_none_iff, List.length_range]
      omega
    rw [nothing]
    split
    · rw [above?_eq_none_iff.mpr (by omega)]
      rfl
    · rfl

/-- No two paths on the way up are the same, as they have not the same number of components. -/
theorem ancestors_pairwise (path : Path) (count : Nat) :
    (path.ancestors count).Pairwise fun lower upper => lower.same upper = false := by
  have different : ((path.ancestors count).map components).Pairwise (· ≠ ·) := by
    rw [map_components_ancestors, List.pairwise_map]
    refine List.Pairwise.imp_of_mem (fun {lower upper} _ listed before same => ?_)
      List.pairwise_lt_range
    have short := List.mem_range.mp listed
    have enough := path.depth_le_length
    have lengths := congrArg List.length same
    rw [List.rdrop, List.rdrop, List.length_take, List.length_take] at lengths
    omega
  rw [List.pairwise_map] at different
  exact different.imp fun apart => Bool.eq_false_iff.mpr fun same => apart (same_iff.mp same)

theorem text_eq_empty_of_steps (relative : path.isAbsolute = false)
    (none' : steps 0 path.slices = []) : path.text = "" := by
  rw [← String.toList_eq_nil_iff]
  cases text : path.text.toList with
  | nil => rfl
  | cons c rest =>
    have noSlash : c ≠ '/' := by
      rintro rfl
      rw [isAbsolute, text] at relative
      cases relative
    obtain ⟨first, later, cut⟩ := List.exists_cons_of_ne_nil (pieces_ne_nil '/' rest)
    have isFirst : isStep (c :: first, 0) = true := by simp [isStep]
    rw [slices, text, pieces_cons, if_neg noSlash, cut, steps_cons, if_pos isFirst] at none'
    cases none'

/-- With no component besides the root a path is the root or the empty path. -/
theorem top_of_depth_eq_zero (flat : path.depth = 0) :
    if path.isAbsolute then path.same ⟨"/"⟩ = true else path = ⟨""⟩ := by
  rw [depth_eq, List.length_eq_zero_iff] at flat
  split
  · rename_i absolute
    rw [same_iff, components_eq, flat, if_pos absolute]
    rfl
  · rename_i relative
    exact congrArg Path.mk (text_eq_empty_of_steps (Bool.eq_false_iff.mpr relative) flat)

/-- For every path, and however many are asked for, the paths listed are the path itself and those
above it. There is one more of them than the path has components besides the root, unless fewer are
asked for; each has one component less than the one before it, the path begins with each as it is
written, and none is there twice. With no limit to their number the way up ends as well: there are as
many levels as there are such components, and on the last one is the root or, if the path does not
start there, the empty path. -/
theorem ancestors_exact (path : Path) (count : Nat) :
    (path.ancestors count).length = min count (path.depth + 1) ∧
    (path.ancestors count).map components =
      (List.range (min count (path.depth + 1))).map path.components.rdrop ∧
    (∀ above ∈ path.ancestors count, above.text.toList <+: path.text.toList) ∧
    (path.ancestors count).Pairwise (fun lower upper => lower.same upper = false) ∧
    (∀ index, (path.ancestors count)[index]? = if index < count then path.above? index else none) ∧
    (∀ levels, path.above? levels = none ↔ path.depth < levels) ∧
    ∃ top, path.above? path.depth = some top ∧ top.parent? = none ∧
      if path.isAbsolute then top.same ⟨"/"⟩ = true else top = ⟨""⟩ := by
  have listed := map_components_ancestors path count
  have number := congrArg List.length listed
  rw [List.length_map, List.length_map, List.length_range] at number
  obtain ⟨top, found, shorter⟩ := exists_above? (Nat.le_refl path.depth)
  have flat : top.depth = 0 := by
    have balance := shorter.depth
    omega
  have ending := top_of_depth_eq_zero flat
  rw [shorter.absolute] at ending
  refine ⟨number, listed, fun above member => ?_, ancestors_pairwise path count,
    getElem?_ancestors path count, fun _ => above?_eq_none_iff, top, found,
    parent?_of_depth_eq_zero flat, ending⟩
  obtain ⟨index, there⟩ := List.mem_iff_getElem?.mp member
  rw [getElem?_ancestors] at there
  split at there
  · exact (Shortened.of_above? there).spelt
  · cases there

/-- A path with a doubled slash in front, a dot and a step back in it, and a slash behind. -/
def slashedPath : Path :=
  ⟨"//a/./b//../"⟩

/-- What is between the components goes with the component behind it, and a step back is a component
like any other. -/
theorem ancestors_slashedPath :
    slashedPath.ancestors 9 = [slashedPath, ⟨"//a/./b"⟩, ⟨"//a"⟩, ⟨"/"⟩] ∧
      (slashedPath.ancestors 3).map components =
        [[.root, .name "a", .name "b", .parent], [.root, .name "a", .name "b"],
          [.root, .name "a"]] ∧
      "//a".toList <+: slashedPath.text.toList := by
  obtain ⟨-, listed, spelt, -⟩ := ancestors_exact slashedPath 3
  refine ⟨by decide, ?_, spelt ⟨"//a"⟩ (by decide)⟩
  rw [listed]
  decide

end SnippetAudit.Path
