import Mathlib.Data.List.Forall2
import SnippetAudit.Proofs.Span.Names
import SnippetAudit.Proofs.Span.Seek

/-!
The stretches of a text that its definitions come from. Every definition has its body from a stretch
of the text that ends where the body does, and the search goes on behind that stretch. So no two
stretches share a character, whatever mixture of headers with braces, closed or not, and of headers
with indentation the text is.
-/

namespace SnippetAudit

open Text

/-- A stretch of a text: from an index of it to another, as many characters from its beginning. -/
structure Stretch where
  start : Nat
  stop : Nat
  ordered : start ≤ stop

namespace Stretch

variable {text : List Char} {stretch : Stretch} {stretches : List Stretch} {start : Nat}

def cut (stretch : Stretch) (text : List Char) : List Char :=
  (text.drop stretch.start).take (stretch.stop - stretch.start)

/-- The character with that index belongs to the stretch. -/
def covers (stretch : Stretch) (index : Nat) : Bool :=
  decide (stretch.start ≤ index) && decide (index < stretch.stop)

/-- A closing brace ends the stretch, and there is none in it. -/
structure Closed (text : List Char) (stretch : Stretch) : Prop where
  last : text[stretch.stop]? = some '}'
  plain : '}' ∉ stretch.cut text

/-- The stretch goes up to where a body with indentation ends, or the text, and no such body ends
in it. -/
structure Unbroken (text : List Char) (stretch : Stretch) : Prop where
  last : stretch.stop = text.length ∨
    Pattern.blockEnd.startsAt ((Place.origin text).after stretch.stop) = true
  plain : Pattern.blockEnd.occursIn (stretch.cut text) = false

/-- The stretch of a text that a definition has its body from. -/
structure Yields (text : List Char) (stretch : Stretch) (span : Span) : Prop where
  within : stretch.stop ≤ text.length
  named : IsName span.name
  filled : span.body ≠ []
  trimmed : Stops isBlank span.body ∧ Stops isBlank span.body.reverse
  bounded : stretch.Closed text ∧ span.body = trim (stretch.cut text) ∨
    stretch.Unbroken text ∧ span.body = trim (Span.dedent (stretch.cut text))

/-- Stretches one behind the other, from an index on. -/
def InOrder (start : Nat) (stretches : List Stretch) : Prop :=
  (∀ stretch ∈ stretches, start ≤ stretch.start) ∧
    stretches.Pairwise fun first second => first.stop ≤ second.start

theorem InOrder.cons (ahead : start ≤ stretch.start) (inOrder : InOrder stretch.stop stretches) :
    InOrder start (stretch :: stretches) := by
  obtain ⟨behind, apart⟩ := inOrder
  refine ⟨List.forall_mem_cons.mpr ⟨ahead, fun later member => ?_⟩, apart.cons behind⟩
  exact Nat.le_trans ahead (Nat.le_trans stretch.ordered (behind later member))

theorem InOrder.mono {earlier : Nat} (ahead : earlier ≤ start) (inOrder : InOrder start stretches) :
    InOrder earlier stretches :=
  ⟨fun stretch member => Nat.le_trans ahead (inOrder.1 stretch member), inOrder.2⟩

/-- No character belongs to two stretches that lie one behind the other. -/
theorem countP_covers_le_one (apart : stretches.Pairwise fun first second =>
      first.stop ≤ second.start) (index : Nat) : stretches.countP (·.covers index) ≤ 1 := by
  induction stretches with
  | nil => exact Nat.zero_le _
  | cons first later ih =>
    obtain ⟨behind, apart⟩ := List.pairwise_cons.mp apart
    rw [List.countP_cons]
    split
    · rename_i covered
      have before : index < first.stop := of_decide_eq_true (Bool.and_eq_true_iff.mp covered).2
      have none : later.countP (·.covers index) = 0 := by
        rw [List.countP_eq_zero]
        intro second member covered
        have reached : second.start ≤ index := of_decide_eq_true (Bool.and_eq_true_iff.mp covered).1
        have := behind second member
        omega
      omega
    · exact ih apart

end Stretch

namespace Place

variable {text : List Char} {place : Place} {count : Nat}

/-- A number of characters from a place on. -/
def stretch (place : Place) (count : Nat) : Stretch :=
  ⟨place.index, place.index + count, Nat.le_add_right _ _⟩

@[simp] theorem stretch_start (place : Place) (count : Nat) :
    (place.stretch count).start = place.index := rfl

@[simp] theorem stretch_stop (place : Place) (count : Nat) :
    (place.stretch count).stop = place.index + count := rfl

theorem eq_after_index (member : place ∈ (origin text).along) :
    place = (origin text).after place.index := by
  obtain ⟨count, -, rfl⟩ := mem_along.mp member
  rw [after_index, origin_index, Nat.zero_add]

theorem rest_eq_drop (member : place ∈ (origin text).along) :
    place.rest = text.drop place.index := by
  obtain ⟨count, -, rfl⟩ := mem_along.mp member
  rw [after_rest, after_index, origin_rest, origin_index, Nat.zero_add]

theorem index_add_length (member : place ∈ (origin text).along) :
    place.index + place.rest.length = text.length := by
  obtain ⟨count, within, rfl⟩ := mem_along.mp member
  rw [origin_rest] at within
  rw [after_index, after_rest, origin_index, origin_rest, List.length_drop]
  omega

theorem cut_stretch (member : place ∈ (origin text).along) (count : Nat) :
    (place.stretch count).cut text = place.rest.take count := by
  rw [Stretch.cut, stretch_start, stretch_stop, Nat.add_sub_cancel_left, rest_eq_drop member]

theorem stretch_within (member : place ∈ (origin text).along)
    (within : count ≤ place.rest.length) : (place.stretch count).stop ≤ text.length := by
  rw [stretch_stop, ← index_add_length member]
  exact Nat.add_le_add_left within _

end Place

namespace Span

variable {text name block : List Char} {place start : Place} {span : Span} {stretch : Stretch}
  {found : List Span}

theorem yields_of_make? (made : make? name block = some span) (named : IsName name)
    (within : stretch.stop ≤ text.length)
    (bounded : stretch.Closed text ∧ block = stretch.cut text ∨
      stretch.Unbroken text ∧ block = dedent (stretch.cut text)) :
    stretch.Yields text span := by
  obtain ⟨-, filled, rfl⟩ := make?_eq_some_iff.mp made
  refine ⟨within, named, filled, ⟨stops_trim _, stops_reverse_trim _⟩, ?_⟩
  rcases bounded with ⟨closed, rfl⟩ | ⟨unbroken, rfl⟩
  · exact Or.inl ⟨closed, rfl⟩
  · exact Or.inr ⟨unbroken, rfl⟩

theorem closed_stretch {body more : List Char} (member : start ∈ (Place.origin text).along)
    (rest : start.rest = body ++ '}' :: more) (plain : '}' ∉ body) :
    (start.stretch body.length).Closed text ∧ body = (start.stretch body.length).cut text := by
  have cut : body = (start.stretch body.length).cut text := by
    rw [Place.cut_stretch member, rest, List.take_left]
  refine ⟨⟨?_, cut ▸ plain⟩, cut⟩
  rw [Place.stretch_stop, ← List.getElem?_drop, ← Place.rest_eq_drop member, rest,
    List.getElem?_append_right (Nat.le_refl _), Nat.sub_self, List.getElem?_cons_zero]

/-- What belongs to a body with indentation is as long as can be without one ending in it. -/
theorem exists_blockBehind (start : Place) :
    ∃ count ≤ start.rest.length, blockBehind start = start.rest.take count ∧
      (∀ passed < count, Pattern.blockEnd.startsAt (start.after passed) = false) ∧
      (count = start.rest.length ∨ Pattern.blockEnd.startsAt (start.after count) = true) := by
  cases ends : start.along.find? Pattern.blockEnd.startsAt with
  | none =>
    refine ⟨start.rest.length, Nat.le_refl _, ?_, fun passed before => ?_, Or.inl rfl⟩
    · rw [blockBehind, ends, List.take_length]
    · have never := List.find?_eq_none.mp ends (start.after passed)
        (Place.mem_along.mpr ⟨passed, Nat.le_of_lt before, rfl⟩)
      simpa using never
  | some stop =>
    rw [Place.along, List.find?_map, Option.map_eq_some_iff] at ends
    obtain ⟨count, first, rfl⟩ := ends
    obtain ⟨atCount, listed, earlier⟩ := List.find?_range_eq_some.mp first
    rw [List.mem_range] at listed
    refine ⟨count, Nat.le_of_lt_succ listed, ?_, fun passed before => ?_, Or.inr atCount⟩
    · have ends : start.along.find? Pattern.blockEnd.startsAt = some (start.after count) := by
        rw [Place.along, List.find?_map, first, Option.map_some]
      simp only [blockBehind, ends, between, Place.after_index, Nat.add_sub_cancel_left]
    · simpa using earlier passed before

/-- A body with indentation that ends in the first characters of a text ends in the text. -/
theorem occursIn_blockEnd_take {count : Nat}
    (never : ∀ passed < count, Pattern.blockEnd.startsAt (start.after passed) = false) :
    Pattern.blockEnd.occursIn (start.rest.take count) = false := by
  rw [← Bool.not_eq_true, Pattern.occursIn_iff]
  rintro ⟨front, used, back, whole, taken⟩
  obtain ⟨-, language⟩ := (Pattern.describes_blockEnd _ _).mp taken
  have rest : start.rest = front ++ (used ++ (back ++ start.rest.drop count)) := by
    rw [← List.append_assoc, ← List.append_assoc, ← whole, List.take_append_drop]
  have inside : used <+: (start.after front.length).rest := by
    rw [Place.after_rest, rest, List.drop_left]
    exact List.prefix_append _ _
  have again : Pattern.blockEnd.startsAt (start.after front.length) = true :=
    Pattern.startsAt_iff.mpr ⟨used, (Pattern.describes_blockEnd _ _).mpr ⟨inside, language⟩⟩
  have short : front.length < count := by
    have lengths := congrArg List.length whole
    obtain ⟨_, rfl, -⟩ := language
    simp only [List.length_take, List.length_append, List.length_cons] at lengths
    omega
  rw [never front.length short] at again
  cases again

theorem unbroken_stretch (member : start ∈ (Place.origin text).along) :
    (start.stretch (blockBehind start).length).Unbroken text ∧
      blockBehind start = (start.stretch (blockBehind start).length).cut text := by
  obtain ⟨count, within, body, never, last⟩ := exists_blockBehind start
  have length : (blockBehind start).length = count := by
    rw [body, List.length_take_of_le within]
  rw [length]
  refine ⟨⟨?_, ?_⟩, body.trans (Place.cut_stretch member count).symm⟩
  · rw [Place.stretch_stop]
    rcases last with whole | ends
    · exact Or.inl (whole ▸ Place.index_add_length member)
    · right
      rwa [Place.eq_after_index member, Place.after_after] at ends
  · rw [Place.cut_stretch member]
    exact occursIn_blockEnd_take never

/-- The definitions come from stretches of the text one behind the other, from an index on. -/
def Placed (text : List Char) (start : Nat) (found : List Span) : Prop :=
  ∃ stretches, List.Forall₂ (Stretch.Yields text) stretches found ∧
    Stretch.InOrder start stretches

theorem Placed.mono {index earlier : Nat} (placed : Placed text index found)
    (ahead : earlier ≤ index) : Placed text earlier found := by
  obtain ⟨stretches, each, inOrder⟩ := placed
  exact ⟨stretches, each, inOrder.mono ahead⟩

/-- A definition may be put before others if it comes from a stretch before theirs. -/
theorem Placed.append {span? : Option Span} {index later : Nat} (placed : Placed text later found)
    (stretch : Stretch) (ahead : index ≤ stretch.start) (behind : stretch.stop ≤ later)
    (yields : ∀ span ∈ span?, stretch.Yields text span) :
    Placed text index (span?.toList ++ found) := by
  cases span? with
  | none => exact placed.mono (Nat.le_trans ahead (Nat.le_trans stretch.ordered behind))
  | some span =>
    obtain ⟨stretches, each, inOrder⟩ := placed
    exact ⟨stretch :: stretches, .cons (yields span rfl) each, (inOrder.mono behind).cons ahead⟩

/-- Where a search goes on behind a header, it goes on in the text. -/
theorem stop_mem_along {header : Header} (member : place ∈ (Place.origin text).along)
    (starts : (site place).header = some header) :
    header.stop ∈ (Place.origin text).along ∧ place.index ≤ header.stop.index := by
  obtain ⟨count, -, within, stops⟩ := exists_stop_of_header starts
  rw [stops]
  exact ⟨Place.after_mem_along member within, Nat.le_add_right _ _⟩

/-- From a place of the text on, whichever way the search goes on, it takes a stretch not before
that place, if any, and goes on at a place of the text not before the end of the stretch. -/
theorem placed_seek (member : place ∈ (Place.origin text).along) :
    Placed text place.index (seek place) := by
  fun_induction seek place with
  | case1 => exact ⟨[], .nil, by simp [Stretch.InOrder]⟩
  | case2 place some' absent ih =>
    have one : 1 ≤ place.rest.length := List.length_pos_iff.mpr some'
    exact (ih (Place.after_mem_along member one)).mono (Nat.le_add_right _ _)
  | case3 place some' header starts name style close closed ih =>
    obtain ⟨inText, ahead⟩ := stop_mem_along member starts
    obtain ⟨body, more, rest, plain, rfl⟩ := exists_of_closing? closed
    have within : body.length + 1 ≤ header.stop.rest.length := by
      rw [rest, List.length_append, List.length_cons]
      omega
    have whole : between header.stop (header.stop.after body.length) = body :=
      between_after ⟨_, rest.symm⟩
    obtain ⟨bounded, cut⟩ := closed_stretch inText rest plain
    rw [Place.after_after] at ih ⊢
    -- the closing brace itself belongs to no stretch
    refine (ih (Place.after_mem_along inText within)).append (header.stop.stretch body.length)
      ahead (Nat.le_succ _) fun span made => ?_
    rw [whole] at made
    exact yields_of_make? made (isName_of_header starts)
      (Place.stretch_within inText (Nat.le_of_succ_le within)) (Or.inl ⟨bounded, cut⟩)
  | case4 place some' header starts style closed ih =>
    obtain ⟨inText, ahead⟩ := stop_mem_along member starts
    exact (ih inText).mono ahead
  | case5 place some' header starts name style body ih =>
    obtain ⟨inText, ahead⟩ := stop_mem_along member starts
    obtain ⟨bounded, cut⟩ := unbroken_stretch inText
    have within := length_blockBehind_le header.stop
    refine (ih (Place.after_mem_along inText within)).append
      (header.stop.stretch (blockBehind header.stop).length) ahead (Nat.le_refl _)
      fun span made => ?_
    exact yields_of_make? made (isName_of_header starts) (Place.stretch_within inText within)
      (Or.inr ⟨bounded, congrArg dedent cut⟩)

/-- Every definition in a text has its body from a stretch of the text of its own, in the order of
the text. The stretches lie one behind the other, so no character belongs to two of them. -/
theorem extract_placed (text : List Char) :
    ∃ stretches, List.Forall₂ (Stretch.Yields text) stretches (extract text) ∧
      stretches.Pairwise (fun first second => first.stop ≤ second.start) ∧
      ∀ index, stretches.countP (·.covers index) ≤ 1 := by
  have begins : Place.origin text ∈ (Place.origin text).along :=
    Place.mem_along.mpr ⟨0, Nat.zero_le _, (Place.after_zero _).symm⟩
  obtain ⟨stretches, each, -, apart⟩ := placed_seek begins
  have sought : extract text = seek (Place.origin text) :=
    (extract_eq_scan text).trans (scan_origin_eq_seek findsHeaders_braceHeader text)
  rw [sought]
  exact ⟨stretches, each, apart, Stretch.countP_covers_le_one apart⟩

end Span

end SnippetAudit
