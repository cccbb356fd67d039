import Mathlib.Data.List.TakeWhile
import SnippetAudit.Proofs.Pattern.Search
import SnippetAudit.Proofs.Span.Braces
import SnippetAudit.Proofs.Span.Indentation

/-!
The search for definitions without the knowledge of the last closing brace. It seeks a closing brace
behind every header with braces, and where there is none it goes on behind the header. That the last
closing brace is known from the start spares it nothing but vain attempts.
-/

namespace SnippetAudit

open Text

namespace Span

variable {braces : Pattern} {place start stop close : Place} {lastClosing : Option Nat}

theorem exists_of_closing? (found : closing? start = some close) :
    ∃ body more, start.rest = body ++ '}' :: more ∧ '}' ∉ body ∧
      close = start.after body.length := by
  by_cases some' : '}' ∈ start.rest
  · obtain ⟨body, more, rest, plain⟩ := List.eq_append_cons_of_mem some'
    rw [closing?_eq rest plain] at found
    exact ⟨body, more, rest, plain, (Option.some.inj found).symm⟩
  · have run : start.rest.takeWhile (· != '}') = start.rest :=
      List.takeWhile_eq_self_iff.mpr (bne_of_not_mem some')
    simp [closing?, run] at found

/-- A header that starts at a place has characters, all of them in the text. -/
theorem exists_stop_of_header {header : Header} (starts : (site place).header = some header) :
    ∃ count, 0 < count ∧ count ≤ place.rest.length ∧ header.stop = place.after count := by
  obtain ⟨c, more, begun, -⟩ := exists_cons_of_header starts
  obtain ⟨used, stops, taken⟩ := exists_takes_of_header starts
  have framed : ∃ last, Framed last used ∧ used <+: place.rest := by
    rcases taken with ⟨-, taken⟩ | ⟨-, taken⟩
    · exact ⟨'{', framed_of_takes_braceHeader taken, taken.1⟩
    · exact ⟨':', framed_of_takes_indentHeader taken, taken.1⟩
  obtain ⟨last, ⟨front, inner, space, same, -⟩, inside⟩ := framed
  refine ⟨used.length, ?_, inside.length_le, stops⟩
  rw [same, List.length_append]
  exact Nat.lt_add_left _ (Nat.succ_pos _)

theorem length_stop_lt {header : Header} (starts : (site place).header = some header) :
    header.stop.rest.length < place.rest.length := by
  obtain ⟨count, positive, within, stops⟩ := exists_stop_of_header starts
  rw [stops, Place.after_rest, List.length_drop]
  omega

theorem length_behind_closing_lt (closed : closing? start = some close) :
    (close.after 1).rest.length < start.rest.length := by
  obtain ⟨body, more, rest, -, rfl⟩ := exists_of_closing? closed
  rw [Place.after_after, Place.after_rest, List.length_drop, rest, List.length_append,
    List.length_cons]
  omega

/-- What belongs to a body with indentation: the text up to where one ends next, or all of it. -/
def blockBehind (start : Place) : List Char :=
  match start.along.find? Pattern.blockEnd.startsAt with
  | some stop => between start stop
  | none => start.rest

theorem length_blockBehind_le (start : Place) :
    (blockBehind start).length ≤ start.rest.length := by
  rw [blockBehind]
  split
  · exact List.length_take_le' _ _
  · exact Nat.le_refl _

/-- The definitions from a place on, with a closing brace sought behind every header with braces.
Every step leaves less of the text, so the search comes to an end. -/
def seek (place : Place) : List Span :=
  if place.rest = [] then []
  else match _ : (site place).header with
    | none => seek (place.after 1)
    | some header =>
      let name := nameIn (between place header.stop)
      match header.style with
      | .braces =>
        match _ : closing? header.stop with
        | some close => (make? name (between header.stop close)).toList ++ seek (close.after 1)
        | none => seek header.stop
      | .indentation =>
        let body := blockBehind header.stop
        (make? name (dedent body)).toList ++ seek (header.stop.after body.length)
termination_by place.rest.length
decreasing_by
  · rename_i nonempty _
    have := List.length_pos_iff.mpr nonempty
    rw [Place.after_rest, List.length_drop]
    omega
  · exact Nat.lt_trans (length_behind_closing_lt ‹_›) (length_stop_lt ‹_›)
  · exact length_stop_lt ‹_›
  · refine Nat.lt_of_le_of_lt ?_ (length_stop_lt ‹_›)
    rw [Place.after_rest, List.length_drop]
    exact Nat.sub_le _ _

theorem find?_and_of_all {first second : α → Bool} {found : List α}
    (all : ∀ a ∈ found, first a = true) :
    found.find? (fun a => first a && second a) = found.find? second := by
  induction found with
  | nil => rfl
  | cons a found ih =>
    obtain ⟨here, later⟩ := List.forall_mem_cons.mp all
    rw [List.find?_cons, List.find?_cons, here, Bool.true_and, ih later]

/-- Whether a closing brace follows can be told from the index of the last one. -/
def Knows (lastClosing : Option Nat) (place : Place) : Prop :=
  ∀ count ≤ place.rest.length,
    lastClosing.any (place.index + count ≤ ·) = true ↔ '}' ∈ place.rest.drop count

theorem Knows.after {count : Nat} (knows : Knows lastClosing place)
    (within : count ≤ place.rest.length) : Knows lastClosing (place.after count) := by
  intro more fits
  rw [Place.after_rest, List.length_drop] at fits
  rw [Place.after_index, Nat.add_assoc, knows (count + more) (by omega), Place.after_rest,
    List.drop_drop]

theorem Knows.behind {header : Header} (knows : Knows lastClosing place)
    (starts : (site place).header = some header) : Knows lastClosing header.stop := by
  obtain ⟨count, -, within, stops⟩ := exists_stop_of_header starts
  exact stops ▸ knows.after within

theorem knows_origin (text : List Char) : Knows (lastClosing? text) (Place.origin text) := by
  intro count within
  rw [Place.origin_index, Nat.zero_add, Place.origin_rest]
  constructor
  · intro ahead
    obtain ⟨last, found, behind⟩ := (Option.any_eq_true _ _).mp ahead
    obtain ⟨index, atIndex, rfl⟩ := Option.map_eq_some_iff.mp found
    obtain ⟨inside, brace, -⟩ := List.findIdx?_eq_some_iff_getElem.mp atIndex
    rw [List.getElem_reverse, beq_iff_eq] at brace
    rw [decide_eq_true_eq] at behind
    rw [List.length_reverse] at inside
    refine List.mem_drop_iff_getElem.mpr ⟨text.length - 1 - index - count, by omega, ?_⟩
    rw [← brace]
    congr 1
    omega
  · intro some'
    obtain ⟨body, more, cut⟩ := List.append_of_mem some'
    have whole : text = (text.take count ++ body) ++ '}' :: more := by
      rw [List.append_assoc, ← cut, List.take_append_drop]
    rw [whole]
    refine lastClosing?_any ?_
    have length : (text.take count).length = count := List.length_take_of_le within
    rw [List.length_append, length]
    exact Nat.le_add_right _ _

/-- The sites of a search for other headers with braces. -/
abbrev siteBy (braces : Pattern) (place : Place) : Site :=
  siteAt braces Pattern.indentHeader Pattern.blockEnd place

/-- A search for other headers with braces. -/
abbrev scanBy (braces : Pattern) (lastClosing : Option Nat) (place : Place) : List Span :=
  scan braces Pattern.indentHeader Pattern.blockEnd lastClosing place

/-- Without a closing brace behind it, a header with braces gives nothing, and is passed. -/
theorem take_braces_eq {later : List Site} (knows : Knows lastClosing stop) :
    take lastClosing start ⟨.braces, stop⟩ later =
      match closing? stop with
      | some close => (make? (nameIn (between start stop)) (between stop close), close.index + 1)
      | none => (none, stop.index) := by
  cases found : closing? stop with
  | none => simp only [take, found, ite_self]
  | some close =>
    obtain ⟨body, more, rest, -⟩ := exists_of_closing? found
    have some' : '}' ∈ stop.rest := rest ▸ List.mem_append_right body List.mem_cons_self
    have told := (knows 0 (Nat.zero_le _)).mpr some'
    rw [Nat.add_zero] at told
    simp only [take, told, if_true, found]

/-- The place at which a body with indentation ends is sought from behind the header. -/
theorem take_indentation_eq {count : Nat} (within : count ≤ place.rest.length) :
    take lastClosing place ⟨.indentation, place.after count⟩
        (sitesFrom braces Pattern.indentHeader Pattern.blockEnd place) =
      (make? (nameIn (between place (place.after count))) (dedent (blockBehind (place.after count))),
        place.index + (count + (blockBehind (place.after count)).length)) := by
  have sought : (sitesFrom braces Pattern.indentHeader Pattern.blockEnd place).find?
      (fun site => (place.after count).index ≤ site.place.index && site.ends) =
        ((place.after count).along.find? Pattern.blockEnd.startsAt).map (siteBy braces) := by
    have before : ((List.range count).map place.after).find? ((fun site =>
        (place.after count).index ≤ site.place.index && site.ends) ∘ siteBy braces) = none := by
      rw [List.find?_eq_none]
      intro later member ends
      obtain ⟨steps, short, rfl⟩ := List.mem_map.mp member
      rw [List.mem_range] at short
      have behind := of_decide_eq_true (Bool.and_eq_true_iff.mp ends).1
      simp only [siteAt, Place.after_index] at behind
      omega
    have ahead : ∀ later ∈ (place.after count).along,
        decide ((place.after count).index ≤ later.index) = true := by
      intro later member
      obtain ⟨steps, -, rfl⟩ := Place.mem_along.mp member
      exact decide_eq_true (Nat.le_add_right _ _)
    rw [sitesFrom, List.find?_map, Place.along_split place within, List.find?_append, before,
      Option.none_or]
    exact congrArg (Option.map (siteBy braces)) (find?_and_of_all ahead)
  have taken : take lastClosing place ⟨.indentation, place.after count⟩
      (sitesFrom braces Pattern.indentHeader Pattern.blockEnd place) =
        (make? (nameIn (between place (place.after count)))
          (dedent (blockBehind (place.after count))),
          (place.after count).index + (blockBehind (place.after count)).length) := by
    refine take_indentation ?_
    rw [sought, blockBehind]
    cases (place.after count).along.find? Pattern.blockEnd.startsAt <;> rfl
  rw [taken, Place.after_index, Nat.add_assoc]

theorem scan_of_end (done : place.rest = []) (never : (siteBy braces place).header = none) :
    scanBy braces lastClosing place = [] := by
  refine scan_eq_nil fun count within => ?_
  rw [done] at within
  rw [Nat.le_zero.mp within, Place.after_zero]
  exact never

/-- Places at which no header starts are passed. -/
theorem scan_of_passed {count : Nat} (within : count ≤ place.rest.length)
    (none : ∀ passed < count, (siteBy braces (place.after passed)).header = none) :
    scanBy braces lastClosing place = scanBy braces lastClosing (place.after count) := by
  induction count with
  | zero => rw [Place.after_zero]
  | succ count ih =>
    have some' : (place.after count).rest ≠ [] := by
      rw [Place.after_rest, Ne, List.drop_eq_nil_iff]
      omega
    rw [ih (Nat.le_of_succ_le within) fun passed before => none passed (Nat.lt_succ_of_lt before),
      scanBy, scan_of_none (none count (Nat.lt_succ_self count)) some', Place.after_after]

/-- What a search finds from a header with braces on, if it knows of the closing braces. -/
theorem scan_of_braces {count : Nat} (knows : Knows lastClosing place) (positive : 0 < count)
    (within : count ≤ place.rest.length)
    (starts : (siteBy braces place).header = some ⟨.braces, place.after count⟩) :
    scanBy braces lastClosing place =
      match closing? (place.after count) with
      | some close => (make? (nameIn (between place (place.after count)))
          (between (place.after count) close)).toList ++ scanBy braces lastClosing (close.after 1)
      | none => scanBy braces lastClosing (place.after count) := by
  have taken := @take_braces_eq place (place.after count) lastClosing
    (sitesFrom braces Pattern.indentHeader Pattern.blockEnd place) (knows.after within)
  cases found : closing? (place.after count) with
  | some close =>
    obtain ⟨body, more, rest, -, rfl⟩ := exists_of_closing? found
    have fits := congrArg List.length rest
    simp only [Place.after_rest, List.length_drop, List.length_append, List.length_cons] at fits
    rw [found] at taken
    simp only [Place.after_after, Place.after_index, Nat.add_assoc] at taken ⊢
    exact scan_of_header starts taken (by omega) (by omega)
  | none =>
    rw [found] at taken
    exact scan_of_header starts taken positive within

theorem scan_of_indentation {count : Nat} (positive : 0 < count)
    (within : count ≤ place.rest.length)
    (starts : (siteBy braces place).header = some ⟨.indentation, place.after count⟩) :
    scanBy braces lastClosing place =
      (make? (nameIn (between place (place.after count)))
        (dedent (blockBehind (place.after count)))).toList ++
        scanBy braces lastClosing
          ((place.after count).after (blockBehind (place.after count)).length) := by
  have fits := length_blockBehind_le (place.after count)
  rw [Place.after_rest, List.length_drop] at fits
  rw [Place.after_after]
  exact scan_of_header starts (take_indentation_eq within) (by omega) (by omega)

/-- A pattern finds the headers with braces that are found otherwise, perhaps at a later character,
with the same name and the same end, and no others. -/
structure FindsHeaders (braces : Pattern) : Prop where
  absent : ∀ place, (site place).header = none → (siteBy braces place).header = none
  indented : ∀ place stop, (site place).header = some ⟨.indentation, stop⟩ →
    (siteBy braces place).header = some ⟨.indentation, stop⟩
  braced : ∀ place stop, (site place).header = some ⟨.braces, stop⟩ →
    ∃ first, (∀ passed < first, (siteBy braces (place.after passed)).header = none) ∧
      (siteBy braces (place.after first)).header = some ⟨.braces, stop⟩ ∧
      (place.after first).index < stop.index ∧
      nameIn (between (place.after first) stop) = nameIn (between place stop)

/-- Where the header is found at a later character, the search passes the characters before it. -/
theorem FindsHeaders.scan_of_braces (finds : FindsHeaders braces) (knows : Knows lastClosing place)
    (starts : (site place).header = some ⟨.braces, stop⟩) :
    scanBy braces lastClosing place =
      match closing? stop with
      | some close => (make? (nameIn (between place stop)) (between stop close)).toList ++
          scanBy braces lastClosing (close.after 1)
      | none => scanBy braces lastClosing stop := by
  obtain ⟨count, -, within, stops⟩ := exists_stop_of_header starts
  obtain ⟨first, passed, begins, ahead, name⟩ := finds.braced place stop starts
  dsimp only at stops
  rw [stops, Place.after_index, Place.after_index] at ahead
  obtain ⟨more, rfl⟩ := Nat.exists_eq_add_of_lt (Nat.lt_of_add_lt_add_left ahead)
  have onward : stop = (place.after first).after (more + 1) := by
    rw [stops, Place.after_after, Nat.add_assoc]
  have fits : more + 1 ≤ (place.after first).rest.length := by
    rw [Place.after_rest, List.length_drop]
    omega
  rw [scan_of_passed (by omega) passed, ← name, onward]
  rw [onward] at begins
  exact Span.scan_of_braces (knows.after (by omega)) (Nat.succ_pos more) fits begins

/-- The knowledge of the last closing brace changes nothing of what is found, and nor does it if the
headers with braces are found at later characters. -/
theorem scan_eq_seek (finds : FindsHeaders braces) (knows : Knows lastClosing place) :
    scanBy braces lastClosing place = seek place := by
  fun_induction seek place with
  | case1 place done =>
    refine scan_of_end done (finds.absent place ?_)
    cases starts : (site place).header with
    | none => rfl
    | some header =>
      obtain ⟨c, more, begun, -⟩ := exists_cons_of_header starts
      rw [done] at begun
      cases begun
  | case2 place some' absent ih =>
    have one : 1 ≤ place.rest.length := List.length_pos_iff.mpr some'
    rw [scanBy, scan_of_none (finds.absent place absent) some']
    exact ih (knows.after one)
  | case3 place some' header starts name style close closed ih =>
    obtain ⟨_, stop⟩ := header
    subst style
    obtain ⟨body, more, rest, -, rfl⟩ := exists_of_closing? closed
    have behind : Knows lastClosing ((stop.after body.length).after 1) := by
      rw [Place.after_after]
      refine (knows.behind starts).after ?_
      rw [rest, List.length_append, List.length_cons]
      omega
    rw [finds.scan_of_braces knows starts, closed]
    exact congrArg (_ ++ ·) (ih behind)
  | case4 place some' header starts style closed ih =>
    obtain ⟨_, stop⟩ := header
    subst style
    rw [finds.scan_of_braces knows starts, closed]
    exact ih (knows.behind starts)
  | case5 place some' header starts name style body ih =>
    obtain ⟨_, stop⟩ := header
    subst style
    obtain ⟨count, positive, within, rfl⟩ := exists_stop_of_header starts
    rw [scan_of_indentation positive within (finds.indented place _ starts)]
    exact congrArg (_ ++ ·) (ih ((knows.behind starts).after (length_blockBehind_le _)))

theorem scan_origin_eq_seek (finds : FindsHeaders braces) (text : List Char) :
    scanBy braces (lastClosing? text) (Place.origin text) = seek (Place.origin text) :=
  scan_eq_seek finds (knows_origin text)

/-- The headers with braces are found where they are. -/
theorem findsHeaders_braceHeader : FindsHeaders Pattern.braceHeader where
  absent _ none := none
  indented _ _ starts := starts
  braced place stop starts := by
    obtain ⟨count, positive, -, stops⟩ := exists_stop_of_header starts
    dsimp only at stops
    refine ⟨0, fun passed before => absurd before (Nat.not_lt_zero passed), ?_, ?_, ?_⟩
    · rwa [Place.after_zero]
    · rw [Place.after_zero, stops, Place.after_index]
      exact Nat.lt_add_of_pos_right positive
    · rw [Place.after_zero]

/-- The index of the last closing brace is invisible in what is found: a search that has no such
index, seeks a closing brace behind every header with braces, and goes on behind the header where
there is none, finds the same definitions. -/
theorem extract_eq_seek (text : List Char) : extract text = seek (Place.origin text) := by
  rw [extract_eq_scan]
  exact scan_origin_eq_seek findsHeaders_braceHeader text

end Span

end SnippetAudit
