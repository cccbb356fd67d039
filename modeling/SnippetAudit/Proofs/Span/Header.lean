import SnippetAudit.Proofs.Span.Scan

/-!
Headers of definitions. Whatever stands before its first parenthesis, a header ends at the first
character that is not blank behind the parenthesis that closes the first one, so a place at which a
header starts leaves no choice of where it ends.
-/

namespace SnippetAudit

open Text

/-- A name of a definition: an identifier. -/
def IsName (name : List Char) : Prop :=
  ∃ c more, name = c :: more ∧ startsIdentifier c = true ∧
    ∀ d ∈ more, continuesIdentifier d = true

theorem IsName.continues {name : List Char} (named : IsName name) :
    ∀ c ∈ name, continuesIdentifier c = true := by
  obtain ⟨c, more, rfl, begins, goesOn⟩ := named
  intro d member
  rcases List.mem_cons.mp member with rfl | later
  · exact continuesIdentifier_of_startsIdentifier begins
  · exact goesOn d later

theorem IsName.ne_nil {name : List Char} (named : IsName name) : name ≠ [] := by
  obtain ⟨c, more, rfl, _, _⟩ := named
  exact List.cons_ne_nil c more

theorem IsName.no_parenthesis {name : List Char} (named : IsName name) : '(' ∉ name := by
  intro member
  have goesOn := named.continues '(' member
  revert goesOn
  decide

instance (name : List Char) : Decidable (IsName name) :=
  match name with
  | [] => isFalse fun named => named.ne_nil rfl
  | c :: more =>
    decidable_of_iff (startsIdentifier c = true ∧ more.all continuesIdentifier = true)
      ⟨fun named => ⟨c, more, rfl, named.1, List.all_eq_true.mp named.2⟩,
        fun ⟨_, _, same, begins, goesOn⟩ => by
          cases same
          exact ⟨begins, List.all_eq_true.mpr goesOn⟩⟩

def AllBlank (text : List Char) : Prop :=
  ∀ c ∈ text, isBlank c = true

instance (text : List Char) : Decidable (AllBlank text) :=
  decidable_of_iff (text.all isBlank = true) List.all_eq_true

theorem AllBlank.no_parenthesis {text : List Char} (blanks : AllBlank text) : '(' ∉ text := by
  intro member
  have blank := blanks '(' member
  revert blank
  decide

namespace Pattern

theorem describes_identifier : identifier.Describes IsName := by
  intro place used
  rw [identifier, (describes_one _).next (describes_many _) place used]
  refine and_congr_right fun _ => ?_
  constructor
  · rintro ⟨_, more, rfl, ⟨c, rfl, begins⟩, goesOn⟩
    exact ⟨c, more, rfl, begins, goesOn⟩
  · rintro ⟨c, more, rfl, begins, goesOn⟩
    exact ⟨[c], more, rfl, ⟨c, rfl, begins⟩, goesOn⟩

theorem describes_parameters :
    parameters.Describes fun used => ∃ gap inner space,
      used = gap ++ '(' :: (inner ++ ')' :: space) ∧ AllBlank gap ∧ ')' ∉ inner ∧
        AllBlank space := by
  intro place used
  have parts := (describes_many isBlank).next ((describes_char '(').next
    ((describes_many (· != ')')).next ((describes_char ')').next (describes_many isBlank))))
  simp only [parameters, sequence, blanks]
  rw [parts place used]
  refine and_congr_right fun _ => ?_
  constructor
  · rintro ⟨gap, _, rfl, gapBlank, _, _, rfl, rfl, inner, _, rfl, plain, _, space, rfl, rfl,
      spaceBlank⟩
    exact ⟨gap, inner, space, by simp, gapBlank, fun member => by simpa using plain _ member,
      spaceBlank⟩
  · rintro ⟨gap, inner, space, rfl, gapBlank, plain, spaceBlank⟩
    refine ⟨gap, _, rfl, gapBlank, ['('], _, rfl, rfl, inner, _, rfl, ?_, [')'], space, rfl, rfl,
      spaceBlank⟩
    intro c member
    have different : c ≠ ')' := fun equal => plain (equal ▸ member)
    simpa using different

end Pattern

/-- A name with parameters and a last character, blanks aside. -/
def NamesHeader (last : Char) (used : List Char) : Prop :=
  ∃ name gap inner space, used = name ++ gap ++ '(' :: (inner ++ ')' :: (space ++ [last])) ∧
    IsName name ∧ AllBlank gap ∧ ')' ∉ inner ∧ AllBlank space

namespace Pattern

theorem describes_header (last : Char) :
    (next identifier (next parameters (char last))).Describes (NamesHeader last) := by
  intro place used
  have parts := describes_identifier.next (describes_parameters.next (describes_char last))
  rw [parts place used]
  refine and_congr_right fun _ => ?_
  constructor
  · rintro ⟨name, _, rfl, named, _, _, rfl, ⟨gap, inner, space, rfl, gapBlank, plain, spaceBlank⟩,
      rfl⟩
    exact ⟨name, gap, inner, space, by simp, named, gapBlank, plain, spaceBlank⟩
  · rintro ⟨name, gap, inner, space, rfl, named, gapBlank, plain, spaceBlank⟩
    exact ⟨name, gap ++ '(' :: (inner ++ ')' :: (space ++ [last])), by simp, named,
      gap ++ '(' :: (inner ++ ')' :: space), [last], by simp,
      ⟨gap, inner, space, rfl, gapBlank, plain, spaceBlank⟩, rfl⟩

def typeWords : List String :=
  ["struct", "class", "void", "int", "float", "char", "long", "double"]

/-- A type before a name is a word for it, blanks, perhaps a star, and perhaps more blanks. -/
theorem takes_typeWord {place : Place} {used : List Char} :
    typeWord.Takes place used ↔ used <+: place.rest ∧ place.isEdge = true ∧
      ∃ word ∈ typeWords, ∃ c gap star space, used = word.toList ++ c :: gap ++ star ++ space ∧
        isBlank c = true ∧ AllBlank gap ∧ (star = ['*'] ∨ star = []) ∧ AllBlank space := by
  have parts := (describes_exactly typeWords).next
    (((describes_one isBlank).next (describes_many isBlank)).next
      (((describes_char '*').either describes_nothing).next (describes_many isBlank)))
  simp only [typeWord, sequence, someBlanks, run, perhaps, blanks]
  rw [← typeWords, takes_next_describes parts]
  refine and_congr_right fun _ => ?_
  constructor
  · rintro ⟨_, _, rfl, atEdge, _, _, rfl, ⟨word, listed, rfl⟩, _, _, rfl,
      ⟨_, gap, rfl, ⟨c, rfl, blank⟩, gapBlank⟩, star, space, rfl, starred, spaceBlank⟩
    obtain ⟨rfl, edge⟩ := takes_edge.mp atEdge
    exact ⟨edge, word, listed, c, gap, star, space, by simp, blank, gapBlank, starred, spaceBlank⟩
  · rintro ⟨edge, word, listed, c, gap, star, space, rfl, blank, gapBlank, starred, spaceBlank⟩
    exact ⟨[], word.toList ++ c :: gap ++ star ++ space, rfl, takes_edge.mpr ⟨rfl, edge⟩,
      word.toList, c :: gap ++ (star ++ space), by simp, ⟨word, listed, rfl⟩, c :: gap,
      star ++ space, rfl, ⟨[c], gap, rfl, ⟨c, rfl, blank⟩, gapBlank⟩, star, space, rfl, starred,
      spaceBlank⟩

theorem typeWord_letters : ∀ word ∈ typeWords,
    '(' ∉ word.toList ∧ word.toList.head?.any startsIdentifier = true := by
  decide

theorem no_parenthesis_of_takes_typeWord {place : Place} {used : List Char}
    (taken : typeWord.Takes place used) : '(' ∉ used := by
  obtain ⟨_, _, word, listed, c, gap, star, space, rfl, blank, gapBlank, starred, spaceBlank⟩ :=
    takes_typeWord.mp taken
  have begun : AllBlank (c :: gap) := by
    intro d member
    rcases List.mem_cons.mp member with rfl | later
    · exact blank
    · exact gapBlank d later
  simp only [List.mem_append, not_or]
  refine ⟨⟨⟨(typeWord_letters word listed).1, begun.no_parenthesis⟩, ?_⟩,
    spaceBlank.no_parenthesis⟩
  rcases starred with rfl | rfl <;> decide

/-- A header with braces is a name with parameters and a brace, perhaps behind a type word. -/
theorem takes_braceHeader {place : Place} {used : List Char} :
    braceHeader.Takes place used ↔ used <+: place.rest ∧ ∃ front back, used = front ++ back ∧
      (perhaps typeWord).Takes place front ∧ NamesHeader '{' back := by
  simp only [braceHeader, sequence]
  rw [takes_next_describes (describes_header '{')]

/-- A header with indentation is a name with parameters and a colon behind a `def`. -/
theorem takes_indentHeader {place : Place} {used : List Char} :
    indentHeader.Takes place used ↔ used <+: place.rest ∧ place.isEdge = true ∧
      ∃ c gap back, used = ['d', 'e', 'f'] ++ c :: gap ++ back ∧ isBlank c = true ∧
        AllBlank gap ∧ NamesHeader ':' back := by
  have parts := (describes_exactly ["def"]).next
    (((describes_one isBlank).next (describes_many isBlank)).next (describes_header ':'))
  simp only [indentHeader, sequence, someBlanks, run]
  rw [takes_next_describes parts]
  refine and_congr_right fun _ => ?_
  constructor
  · rintro ⟨_, _, rfl, atEdge, _, _, rfl, ⟨word, listed, rfl⟩, _, back, rfl,
      ⟨_, gap, rfl, ⟨c, rfl, blank⟩, gapBlank⟩, header⟩
    obtain ⟨rfl, edge⟩ := takes_edge.mp atEdge
    rw [List.mem_singleton] at listed
    subst word
    exact ⟨edge, c, gap, back, by simp, blank, gapBlank, header⟩
  · rintro ⟨edge, c, gap, back, rfl, blank, gapBlank, header⟩
    exact ⟨[], ['d', 'e', 'f'] ++ c :: gap ++ back, rfl, takes_edge.mpr ⟨rfl, edge⟩,
      ['d', 'e', 'f'], c :: gap ++ back, by simp,
      ⟨"def", List.mem_singleton_self _, rfl⟩, c :: gap, back, rfl,
      ⟨[c], gap, rfl, ⟨c, rfl, blank⟩, gapBlank⟩, header⟩

end Pattern

/-- A text up to the character `last` behind the parentheses that open and close first in it. -/
def Framed (last : Char) (used : List Char) : Prop :=
  ∃ front inner space, used = front ++ '(' :: (inner ++ ')' :: (space ++ [last])) ∧
    '(' ∉ front ∧ ')' ∉ inner ∧ AllBlank space

theorem NamesHeader.framed {last : Char} {front back : List Char} (plain : '(' ∉ front)
    (header : NamesHeader last back) : Framed last (front ++ back) := by
  obtain ⟨name, gap, inner, space, rfl, named, gapBlank, innerPlain, spaceBlank⟩ := header
  refine ⟨front ++ name ++ gap, inner, space, by simp, ?_, innerPlain, spaceBlank⟩
  simp only [List.mem_append, not_or]
  exact ⟨⟨plain, named.no_parenthesis⟩, gapBlank.no_parenthesis⟩

theorem framed_of_takes_braceHeader {place : Place} {used : List Char}
    (taken : Pattern.braceHeader.Takes place used) : Framed '{' used := by
  obtain ⟨_, front, back, rfl, typed, header⟩ := Pattern.takes_braceHeader.mp taken
  refine header.framed ?_
  rcases Pattern.takes_perhaps.mp typed with word | rfl
  · exact Pattern.no_parenthesis_of_takes_typeWord word
  · exact List.not_mem_nil

theorem framed_of_takes_indentHeader {place : Place} {used : List Char}
    (taken : Pattern.indentHeader.Takes place used) : Framed ':' used := by
  obtain ⟨_, _, c, gap, back, rfl, blank, gapBlank, header⟩ := Pattern.takes_indentHeader.mp taken
  have begun : AllBlank (c :: gap) := by
    intro d member
    rcases List.mem_cons.mp member with rfl | later
    · exact blank
    · exact gapBlank d later
  refine header.framed ?_
  rw [List.mem_append, not_or]
  exact ⟨by decide, begun.no_parenthesis⟩

/-- A text leaves no choice of what is framed at its beginning. -/
theorem Framed.unique {x y : Char} {used front inner space more : List Char}
    (framed : Framed x used) (solid : isBlank x = false)
    (inside : used <+: front ++ '(' :: (inner ++ ')' :: (space ++ y :: more)))
    (frontPlain : '(' ∉ front) (innerPlain : ')' ∉ inner) (spaceBlank : AllBlank space)
    (otherSolid : isBlank y = false) :
    x = y ∧ used = front ++ '(' :: (inner ++ ')' :: (space ++ [y])) := by
  obtain ⟨front', inner', space', rfl, frontPlain', innerPlain', spaceBlank'⟩ := framed
  obtain ⟨later, whole⟩ := inside
  have flat : front' ++ '(' :: (inner' ++ ')' :: (space' ++ x :: later)) =
      front ++ '(' :: (inner ++ ')' :: (space ++ y :: more)) := by
    simpa using whole
  obtain ⟨rfl, _, afterOpening⟩ := append_cons_inj (bne_of_not_mem frontPlain') (by decide)
    (bne_of_not_mem frontPlain) (by decide) flat
  obtain ⟨rfl, _, afterClosing⟩ := append_cons_inj (bne_of_not_mem innerPlain') (by decide)
    (bne_of_not_mem innerPlain) (by decide) afterOpening
  obtain ⟨rfl, rfl, _⟩ := append_cons_inj spaceBlank' solid spaceBlank otherSolid afterClosing
  exact ⟨rfl, rfl⟩

namespace Span

/-- What the search knows of a place, with the patterns of definitions. -/
abbrev site (place : Place) : Site :=
  siteAt Pattern.braceHeader Pattern.indentHeader Pattern.blockEnd place

section

variable {braces indentation blockEnd : Pattern} {place : Place}

/-- A header that starts at a place has taken a stretch from there in its style. -/
theorem exists_takes_of_header {header : Header}
    (starts : (siteAt braces indentation blockEnd place).header = some header) :
    ∃ used, header.stop = place.after used.length ∧
      (header.style = .braces ∧ braces.Takes place used ∨
        header.style = .indentation ∧ indentation.Takes place used) := by
  cases brace : (braces.ends place).head? with
  | some stop =>
    have value : Header.mk .braces stop = header := by simpa [siteAt, brace] using starts
    subst header
    obtain ⟨used, taken, same⟩ := Pattern.exists_takes_of_head? brace
    exact ⟨used, same, Or.inl ⟨rfl, taken⟩⟩
  | none =>
    cases indent : (indentation.ends place).head? with
    | some stop =>
      have value : Header.mk .indentation stop = header := by
        simpa [siteAt, brace, indent] using starts
      subst header
      obtain ⟨used, taken, same⟩ := Pattern.exists_takes_of_head? indent
      exact ⟨used, same, Or.inr ⟨rfl, taken⟩⟩
    | none => simp [siteAt, brace, indent] at starts

theorem header_eq_none_iff :
    (siteAt braces indentation blockEnd place).header = none ↔
      (∀ used, ¬ braces.Takes place used) ∧ ∀ used, ¬ indentation.Takes place used := by
  rw [← Pattern.head?_ends_eq_none_iff, ← Pattern.head?_ends_eq_none_iff]
  simp only [siteAt]
  cases (braces.ends place).head? <;> cases (indentation.ends place).head? <;> simp

end

/-- The character behind the parentheses tells the style of a header that starts at a place, and the
header ends behind it. -/
theorem header_eq_of_framed {place : Place} {header : Header} {x : Char}
    {front inner space more : List Char} (starts : (site place).header = some header)
    (rest : place.rest = front ++ '(' :: (inner ++ ')' :: (space ++ x :: more)))
    (frontPlain : '(' ∉ front) (innerPlain : ')' ∉ inner) (spaceBlank : AllBlank space)
    (solid : isBlank x = false) :
    header.stop = place.after (front ++ '(' :: (inner ++ ')' :: (space ++ [x]))).length ∧
      (x = '{' ∧ header.style = .braces ∨ x = ':' ∧ header.style = .indentation) := by
  obtain ⟨used, stop, ⟨style, taken⟩ | ⟨style, taken⟩⟩ := exists_takes_of_header starts
  · obtain ⟨same, whole⟩ := (framed_of_takes_braceHeader taken).unique (by decide)
      (rest ▸ taken.1) frontPlain innerPlain spaceBlank solid
    exact ⟨by rw [stop, whole], Or.inl ⟨same.symm, style⟩⟩
  · obtain ⟨same, whole⟩ := (framed_of_takes_indentHeader taken).unique (by decide)
      (rest ▸ taken.1) frontPlain innerPlain spaceBlank solid
    exact ⟨by rw [stop, whole], Or.inr ⟨same.symm, style⟩⟩

theorem exists_cons_of_header {place : Place} {header : Header}
    (starts : (site place).header = some header) :
    ∃ c more, place.rest = c :: more ∧ startsIdentifier c = true := by
  obtain ⟨used, _, ⟨_, taken⟩ | ⟨_, taken⟩⟩ := exists_takes_of_header starts
  · obtain ⟨⟨later, rest⟩, front, back, rfl, typed, name, _, _, _, rfl, named, _⟩ :=
      Pattern.takes_braceHeader.mp taken
    rw [← rest]
    rcases Pattern.takes_perhaps.mp typed with word | rfl
    · obtain ⟨_, _, spelling, listed, _, _, _, _, rfl, _⟩ := Pattern.takes_typeWord.mp word
      obtain ⟨c, first, begins⟩ :=
        (Option.any_eq_true _ _).mp (Pattern.typeWord_letters spelling listed).2
      obtain ⟨more, letters⟩ := List.head?_eq_some_iff.mp first
      exact ⟨c, _, by rw [letters]; rfl, begins⟩
    · obtain ⟨c, more, rfl, begins, _⟩ := named
      exact ⟨c, _, rfl, begins⟩
  · obtain ⟨⟨later, rest⟩, _, c, gap, back, rfl, _⟩ := Pattern.takes_indentHeader.mp taken
    rw [← rest]
    exact ⟨'d', _, rfl, by decide⟩

/-- No header starts where no parenthesis is opened any more. -/
theorem header_eq_none_of_plain {place : Place} (plain : '(' ∉ place.rest) :
    (site place).header = none := by
  rw [header_eq_none_iff]
  constructor
  · intro used taken
    obtain ⟨front, inner, space, rfl, _⟩ := framed_of_takes_braceHeader taken
    exact plain (taken.1.subset (by simp))
  · intro used taken
    obtain ⟨front, inner, space, rfl, _⟩ := framed_of_takes_indentHeader taken
    exact plain (taken.1.subset (by simp))

end Span

/-- The name in a header is the identifier before its first parenthesis. -/
theorem nameIn_eq {front name gap more : List Char} (named : IsName name)
    (apart : ∀ c ∈ front.getLast?, continuesIdentifier c = false) (plain : '(' ∉ front)
    (gapBlank : AllBlank gap) : Span.nameIn (front ++ name ++ gap ++ '(' :: more) = name := by
  have before : (front ++ name ++ gap ++ '(' :: more).takeWhile (· != '(') =
      front ++ name ++ gap := by
    apply takeWhile_append_cons
    · apply bne_of_not_mem
      simp only [List.mem_append, not_or]
      exact ⟨⟨plain, named.no_parenthesis⟩, gapBlank.no_parenthesis⟩
    · decide
  have trimmed : trimEnd (front ++ name ++ gap) = front ++ name := by
    obtain ⟨init, c, rfl⟩ : ∃ init c, name = init ++ [c] :=
      ⟨_, _, (List.dropLast_concat_getLast named.ne_nil).symm⟩
    have solid : isBlank c = false :=
      isBlank_of_continuesIdentifier (named.continues c (by simp))
    have ended := @trimEnd_append_blanks (front ++ init) gap c solid gapBlank
    simpa using ended
  have turned : (front.reverse.takeWhile continuesIdentifier) = [] := by
    cases last : front.reverse with
    | nil => rfl
    | cons c others =>
      have final : front.getLast? = some c := by
        rw [← List.head?_reverse, last, List.head?_cons]
      rw [List.takeWhile_cons_of_neg (by simpa using apart c final)]
  rw [Span.nameIn, before, trimmed, List.reverse_append,
    List.takeWhile_append_of_pos (by simpa using named.continues), turned]
  simp

end SnippetAudit
