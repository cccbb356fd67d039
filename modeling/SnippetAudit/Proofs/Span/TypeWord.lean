import SnippetAudit.Proofs.Span.Names
import SnippetAudit.Proofs.Span.Seek

/-!
Type words before names. A header begins earlier where a word for a type stands before its name, but
nothing else can begin within that word or behind it: the blanks and the star between the two belong
to no name. So the same definitions are found if type words are not looked for.
-/

namespace SnippetAudit

open Text

/-- A text leaves no choice between two framed stretches at its beginning. -/
theorem Framed.inj {x y : Char} {used other text : List Char} (framed : Framed x used)
    (otherFramed : Framed y other) (inside : used <+: text) (otherInside : other <+: text)
    (solid : isBlank x = false) (otherSolid : isBlank y = false) : x = y ∧ used = other := by
  obtain ⟨front, inner, space, rfl, frontPlain, innerPlain, spaceBlank⟩ := otherFramed
  obtain ⟨more, rfl⟩ := otherInside
  have here : used <+: front ++ '(' :: (inner ++ ')' :: (space ++ y :: more)) := by
    simpa using inside
  exact framed.unique solid here frontPlain innerPlain spaceBlank otherSolid

/-- No name with blanks behind it reaches over a character that belongs to no name to another name. -/
theorem IsName.not_across {name gap front other more : List Char} {c : Char} (named : IsName name)
    (gapBlank : AllBlank gap) (apart : continuesIdentifier c = false) (otherNamed : IsName other) :
    name ++ gap ≠ front ++ c :: (other ++ more) := by
  obtain ⟨d, later, rfl, begins, -⟩ := otherNamed
  have notInGap : d ∉ gap := fun member => by
    have solid := isBlank_of_continuesIdentifier (continuesIdentifier_of_startsIdentifier begins)
    rw [gapBlank d member] at solid
    cases solid
  intro same
  rcases List.append_eq_append_iff.mp same with ⟨between, -, rfl⟩ | ⟨between, rfl, cut⟩
  · exact notInGap (by simp)
  · cases between with
    | nil => exact notInGap (by rw [← List.nil_append gap, ← cut]; simp)
    | cons x between =>
      obtain ⟨rfl, -⟩ := List.cons.inj cut
      rw [named.continues c (by simp)] at apart
      cases apart

/-- The name in a header does not hang on what stands before it. -/
theorem NamesHeader.nameIn_append {last : Char} {front back : List Char}
    (header : NamesHeader last back) (plain : '(' ∉ front)
    (apart : ∀ c ∈ front.getLast?, continuesIdentifier c = false) :
    Span.nameIn (front ++ back) = Span.nameIn back := by
  obtain ⟨name, gap, inner, space, rfl, named, gapBlank, -, -⟩ := header
  have behind (front : List Char) : front ++ (name ++ gap ++
      '(' :: (inner ++ ')' :: (space ++ [last]))) =
      front ++ name ++ gap ++ '(' :: (inner ++ ')' :: (space ++ [last])) := by
    simp only [List.append_assoc]
  have alone : Span.nameIn ([] ++ name ++ gap ++ '(' :: (inner ++ ')' :: (space ++ [last]))) =
      name := nameIn_eq named (fun c none => by cases none) List.not_mem_nil gapBlank
  rw [behind, nameIn_eq named apart plain gapBlank]
  exact alone.symm

/-- A header stays no header when something is put before it that ends in a character of no name. -/
theorem NamesHeader.eq_nil_of_append {last : Char} {front back : List Char}
    (header : NamesHeader last back) (plain : '(' ∉ front)
    (apart : ∀ c ∈ front.getLast?, continuesIdentifier c = false)
    (whole : NamesHeader last (front ++ back)) : front = [] := by
  rcases List.eq_nil_or_concat front with none | ⟨init, c, rfl⟩
  · exact none
  · obtain ⟨name, gap, inner, space, rfl, named, gapBlank, -, -⟩ := header
    obtain ⟨name', gap', inner', space', same, named', gapBlank', -, -⟩ := whole
    have cut : (name' ++ gap') ++ '(' :: (inner' ++ ')' :: (space' ++ [last])) =
        (init.concat c ++ name ++ gap) ++ '(' :: (inner ++ ')' :: (space ++ [last])) := by
      rw [← same]
      simp only [List.append_assoc]
    have plain' : '(' ∉ name' ++ gap' := by
      rw [List.mem_append, not_or]
      exact ⟨named'.no_parenthesis, gapBlank'.no_parenthesis⟩
    have frontPlain : '(' ∉ init.concat c ++ name ++ gap := by
      rw [List.mem_append, List.mem_append, not_or, not_or]
      exact ⟨⟨plain, named.no_parenthesis⟩, gapBlank.no_parenthesis⟩
    obtain ⟨names, -, -⟩ := append_cons_inj (bne_of_not_mem plain') (by decide)
      (bne_of_not_mem frontPlain) (by decide) cut
    have outside : continuesIdentifier c = false := apart c (by simp)
    have across : name' ++ gap' = init ++ c :: (name ++ gap) := by simpa using names
    exact absurd across (named'.not_across gapBlank' outside named)

namespace Pattern

/-- A definition with braces, as far as its opening brace, without the type word before its name. -/
def plainHeader : Pattern :=
  sequence [identifier, parameters, char '{']

variable {place : Place} {used front back : List Char}

theorem takes_plainHeader :
    plainHeader.Takes place used ↔ used <+: place.rest ∧ NamesHeader '{' used :=
  describes_header '{' place used

theorem takes_braceHeader_of_plain (taken : plainHeader.Takes place used) :
    braceHeader.Takes place used := by
  obtain ⟨inside, header⟩ := takes_plainHeader.mp taken
  exact takes_braceHeader.mpr ⟨inside, [], used, rfl, takes_perhaps.mpr (Or.inr rfl), header⟩

/-- What stands before the name in a header opens no parenthesis and ends in no name. -/
theorem apart_of_takes_perhaps (taken : (perhaps typeWord).Takes place front) :
    '(' ∉ front ∧ ∀ c ∈ front.getLast?, continuesIdentifier c = false := by
  rcases takes_perhaps.mp taken with word | rfl
  · exact ⟨no_parenthesis_of_takes_typeWord word, apart_of_takes_typeWord word⟩
  · exact ⟨List.not_mem_nil, fun c none => by cases none⟩

/-- No header begins in a stretch that ends in a character of no name, if one begins behind it. -/
theorem not_takes_within (inside : front ++ back <+: place.rest) (plain : '(' ∉ front)
    (apart : ∀ c ∈ front.getLast?, continuesIdentifier c = false)
    (header : NamesHeader '{' back) {passed : Nat} (within : passed < front.length)
    (used : List Char) :
    ¬plainHeader.Takes (place.after passed) used ∧
      ¬indentHeader.Takes (place.after passed) used := by
  have left : front.drop passed ≠ [] := by
    rw [Ne, List.drop_eq_nil_iff]
    omega
  have leftPlain : '(' ∉ front.drop passed := fun member => plain (List.mem_of_mem_drop member)
  have framed : Framed '{' (front.drop passed ++ back) := header.framed leftPlain
  have here : front.drop passed ++ back <+: (place.after passed).rest := by
    obtain ⟨more, rest⟩ := inside
    refine ⟨more, ?_⟩
    rw [Place.after_rest, ← rest, List.append_assoc, List.append_assoc,
      List.drop_append_of_le_length (Nat.le_of_lt within)]
  constructor
  · intro taken
    obtain ⟨inside', header'⟩ := takes_plainHeader.mp taken
    obtain ⟨-, rfl⟩ := (header'.framed List.not_mem_nil).inj framed inside' here (by decide)
      (by decide)
    refine left (header.eq_nil_of_append leftPlain (fun c last => apart c ?_) header')
    rw [Option.mem_def, ← List.take_append_drop passed front, List.getLast?_append, last,
      Option.some_or]
  · intro taken
    obtain ⟨differs, -⟩ := (framed_of_takes_indentHeader taken).inj framed taken.1 here (by decide)
      (by decide)
    exact absurd differs (by decide)

end Pattern

namespace Span

variable {place stop : Place}

theorem header_plain_of_takes {used : List Char} (taken : Pattern.plainHeader.Takes place used) :
    (siteBy Pattern.plainHeader place).header = some ⟨.braces, place.after used.length⟩ := by
  have framed {used : List Char} (taken : Pattern.plainHeader.Takes place used) :
      Framed '{' used := (Pattern.takes_plainHeader.mp taken).2.framed List.not_mem_nil
  cases preferred : (Pattern.plainHeader.ends place).head? with
  | none => exact absurd taken (Pattern.head?_ends_eq_none_iff.mp preferred used)
  | some stop =>
    obtain ⟨other, otherTaken, rfl⟩ := Pattern.exists_takes_of_head? preferred
    obtain ⟨-, rfl⟩ := (framed taken).inj (framed otherTaken) taken.1 otherTaken.1 (by decide)
      (by decide)
    simp [siteAt, preferred]

theorem findsHeaders_plainHeader : FindsHeaders Pattern.plainHeader where
  absent place none := by
    obtain ⟨noBraces, noIndentation⟩ := header_eq_none_iff.mp none
    exact header_eq_none_iff.mpr
      ⟨fun used taken => noBraces used (Pattern.takes_braceHeader_of_plain taken), noIndentation⟩
  indented place stop starts := by
    have noBraces : (Pattern.braceHeader.ends place).head? = Option.none := by
      cases brace : (Pattern.braceHeader.ends place).head? with
      | none => rfl
      | some stop => simp [siteAt, brace] at starts
    have noPlain : (Pattern.plainHeader.ends place).head? = Option.none :=
      Pattern.head?_ends_eq_none_iff.mpr fun used taken =>
        Pattern.head?_ends_eq_none_iff.mp noBraces used (Pattern.takes_braceHeader_of_plain taken)
    rw [← starts]
    simp only [siteAt, noBraces, noPlain]
  braced place stop starts := by
    obtain ⟨used, stops, ⟨-, taken⟩ | ⟨style, -⟩⟩ := exists_takes_of_header starts
    · obtain ⟨inside, front, back, rfl, typed, header⟩ := Pattern.takes_braceHeader.mp taken
      obtain ⟨plain, apart⟩ := Pattern.apart_of_takes_perhaps typed
      have behind : back <+: (place.after front.length).rest := by
        obtain ⟨more, rest⟩ := inside
        exact ⟨more, by rw [Place.after_rest, ← rest, List.append_assoc, List.drop_left]⟩
      have plainTaken := Pattern.takes_plainHeader.mpr ⟨behind, header⟩
      have same : stop = (place.after front.length).after back.length := by
        rw [Place.after_after, ← List.length_append]
        exact stops
      have some' : back ≠ [] := by
        obtain ⟨name, gap, inner, space, rfl, named, -⟩ := header
        simp
      refine ⟨front.length, fun passed within => ?_, ?_, ?_, ?_⟩
      · exact header_eq_none_iff.mpr
          ⟨fun used => (Pattern.not_takes_within inside plain apart header within used).1,
            fun used => (Pattern.not_takes_within inside plain apart header within used).2⟩
      · rw [same]
        exact header_plain_of_takes plainTaken
      · rw [same, Place.after_index _ back.length]
        exact Nat.lt_add_of_pos_right (List.length_pos_iff.mpr some')
      · have whole : between place stop = front ++ back := by
          rw [show stop = _ from stops]
          exact between_after inside
        rw [whole, same, between_after behind, header.nameIn_append plain apart]
    · cases style

/-- The definitions of a text are the same if no word for a type is looked for before their names. -/
theorem extract_without_typeWord (text : List Char) :
    extract text = collect (lastClosing? text) 0 []
      (sites Pattern.plainHeader Pattern.indentHeader Pattern.blockEnd text) := by
  have typed := scan_origin_eq_seek findsHeaders_braceHeader text
  have plain := scan_origin_eq_seek findsHeaders_plainHeader text
  rw [extract_eq_scan, sites_eq]
  exact typed.trans plain.symm

end Span

end SnippetAudit
