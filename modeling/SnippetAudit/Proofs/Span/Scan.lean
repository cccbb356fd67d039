import SnippetAudit.Proofs.Pattern.Takes
import SnippetAudit.Proofs.Text.Trim
import SnippetAudit.Span

/-!
The search for definitions as a walk along a text: from a place it goes on to the next character,
or, where a header starts, to the place behind the body of that header.
-/

namespace SnippetAudit

open Text

namespace Place

theorem along_split (place : Place) {count : Nat} (within : count ≤ place.rest.length) :
    place.along = (List.range count).map place.after ++ (place.after count).along := by
  have total : place.rest.length + 1 = count + (place.rest.length - count + 1) := by omega
  have shifted : (place.after count).after = fun more => place.after (count + more) := by
    funext more
    exact after_after place count more
  rw [along, total, List.range_add, List.map_append, List.map_map, along, after_rest,
    List.length_drop, shifted]
  rfl

end Place

namespace Span

variable (braces indentation blockEnd : Pattern)

def siteAt (place : Place) : Site :=
  ⟨place, ((braces.ends place).head?.map (Header.mk .braces)) <|>
    ((indentation.ends place).head?.map (Header.mk .indentation)),
    (blockEnd.ends place).head?.isSome⟩

def sitesFrom (place : Place) : List Site :=
  place.along.map (siteAt braces indentation blockEnd)

/-- The definitions found from a place on. -/
def scan (lastClosing : Option Nat) (place : Place) : List Span :=
  collect lastClosing place.index [] (sitesFrom braces indentation blockEnd place)

theorem sites_eq (text : List Char) :
    sites braces indentation blockEnd text =
      sitesFrom braces indentation blockEnd (Place.origin text) := by
  simp only [sites, Pattern.stops_eq, sitesFrom]
  induction (Place.origin text).along with
  | nil => rfl
  | cons place later ih =>
    simp only [List.map_cons, List.zip_cons_cons, List.zipWith_cons_cons, ih]
    rfl

theorem extract_eq_scan (text : List Char) :
    extract text = scan Pattern.braceHeader Pattern.indentHeader Pattern.blockEnd
      (lastClosing? text) (Place.origin text) := by
  rw [extract, sites_eq, scan, Place.origin_index]

variable {braces indentation blockEnd} {lastClosing : Option Nat} {place : Place} {resume : Nat}

/-- What has been found plays no part in what is found later. -/
theorem collect_found (found : List Span) (coming : List Site) :
    collect lastClosing resume found coming =
      found.reverse ++ collect lastClosing resume [] coming := by
  induction coming generalizing resume found with
  | nil => simp [collect]
  | cons site later ih =>
    cases header : site.header with
    | none =>
      simp only [collect, header]
      exact ih found
    | some _ =>
      simp only [collect, header]
      split
      · exact ih found
      · rw [ih (_ ++ found), ih (_ ++ [])]
        simp

/-- Sites before the resuming index, and sites at which no header starts, are passed over. -/
theorem collect_skip {passed coming : List Site}
    (skipped : ∀ site ∈ passed, site.header = none ∨ site.place.index < resume) :
    collect lastClosing resume [] (passed ++ coming) = collect lastClosing resume [] coming := by
  induction passed with
  | nil => rfl
  | cons site passed ih =>
    have later := ih fun other member => skipped other (List.mem_cons_of_mem _ member)
    rcases skipped site List.mem_cons_self with none | before
    · simp only [List.cons_append, collect, none, later]
    · cases header : site.header with
      | none => simp only [List.cons_append, collect, header, later]
      | some _ => simp only [List.cons_append, collect, header, if_pos before, later]

theorem collect_sitesFrom {count : Nat} (within : count ≤ place.rest.length) :
    collect lastClosing (place.index + count) [] (sitesFrom braces indentation blockEnd place) =
      scan braces indentation blockEnd lastClosing (place.after count) := by
  rw [sitesFrom, Place.along_split place within, List.map_append, collect_skip]
  · rfl
  · intro site member
    obtain ⟨passed, inFront, rfl⟩ := List.mem_map.mp member
    obtain ⟨steps, short, rfl⟩ := List.mem_map.mp inFront
    rw [List.mem_range] at short
    right
    simp only [siteAt, Place.after_index]
    omega

/-- Nothing starts at the end of a text but what needs no character. -/
theorem sitesFrom_eq_cons (place : Place) :
    sitesFrom braces indentation blockEnd place =
      siteAt braces indentation blockEnd place ::
        (if place.rest = [] then [] else sitesFrom braces indentation blockEnd (place.after 1)) := by
  rw [sitesFrom, Place.along_eq_cons, List.map_cons]
  split <;> rfl

/-- A resuming index that no site lies before does not matter. -/
theorem collect_resume {first second : Nat} {coming : List Site}
    (ahead : ∀ site ∈ coming, first ≤ site.place.index ∧ second ≤ site.place.index) :
    collect lastClosing first [] coming = collect lastClosing second [] coming := by
  induction coming with
  | nil => rfl
  | cons site later ih =>
    have here := ahead site List.mem_cons_self
    cases header : site.header with
    | none =>
      simp only [collect, header]
      exact ih fun other member => ahead other (List.mem_cons_of_mem _ member)
    | some _ =>
      simp only [collect, header, if_neg (Nat.not_lt.mpr here.1), if_neg (Nat.not_lt.mpr here.2)]

theorem index_le_of_mem_sitesFrom {site : Site}
    (member : site ∈ sitesFrom braces indentation blockEnd place) :
    place.index ≤ site.place.index := by
  obtain ⟨later, along, rfl⟩ := List.mem_map.mp member
  obtain ⟨count, _, rfl⟩ := Place.mem_along.mp along
  exact Nat.le_add_right _ _

/-- Where no header starts, the search goes on to the next character. -/
theorem scan_of_none (none : (siteAt braces indentation blockEnd place).header = none)
    (nonempty : place.rest ≠ []) :
    scan braces indentation blockEnd lastClosing place =
      scan braces indentation blockEnd lastClosing (place.after 1) := by
  rw [scan, sitesFrom_eq_cons, collect, none, if_neg nonempty, scan]
  apply collect_resume
  intro site member
  have ahead := index_le_of_mem_sitesFrom member
  rw [Place.after_index] at ahead
  exact ⟨by omega, ahead⟩

/-- Where no header starts from a place to the end of the text, nothing is found. -/
theorem scan_eq_nil (none : ∀ count ≤ place.rest.length,
      (siteAt braces indentation blockEnd (place.after count)).header = none) :
    scan braces indentation blockEnd lastClosing place = [] := by
  rw [scan, ← List.append_nil (sitesFrom braces indentation blockEnd place), collect_skip]
  · rfl
  · intro site member
    obtain ⟨later, along, rfl⟩ := List.mem_map.mp member
    obtain ⟨count, within, rfl⟩ := Place.mem_along.mp along
    exact Or.inl (none count within)

/-- Where a header starts, the search takes the definition and goes on behind its body. -/
theorem scan_of_header {header : Header} {span? : Option Span} {count : Nat}
    (starts : (siteAt braces indentation blockEnd place).header = some header)
    (taken : take lastClosing place header (sitesFrom braces indentation blockEnd place) =
      (span?, place.index + count))
    (positive : 0 < count) (within : count ≤ place.rest.length) :
    scan braces indentation blockEnd lastClosing place =
      span?.toList ++ scan braces indentation blockEnd lastClosing (place.after count) := by
  have here : (siteAt braces indentation blockEnd place).place = place := rfl
  -- the site of the header itself lies before the index from which the search goes on
  have itself : collect lastClosing (place.index + count) []
      (if place.rest = [] then [] else sitesFrom braces indentation blockEnd (place.after 1)) =
      collect lastClosing (place.index + count) []
        (sitesFrom braces indentation blockEnd place) := by
    rw [sitesFrom_eq_cons place, ← List.singleton_append, collect_skip]
    intro site member
    right
    rw [List.mem_singleton.mp member, here]
    omega
  rw [collect_sitesFrom within] at itself
  rw [sitesFrom_eq_cons] at taken
  rw [scan, sitesFrom_eq_cons, collect, starts]
  simp only [here, Nat.lt_irrefl, if_false, taken, List.append_nil]
  rw [collect_found, itself]
  cases span? <;> rfl

end Span

end SnippetAudit
