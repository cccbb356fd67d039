import SnippetAudit.Proofs.Pattern.Token

/-!
Occurrences in a text that goes on with another line. A pattern that takes nothing across the line
break has the same occurrences in the text as before, and behind the line break those of the line.
-/

namespace SnippetAudit

open Text

namespace Pattern

theorem filter_range_le (count bound : Nat) :
    (List.range (count + 1)).filter (· ≤ bound) = List.range (min count bound + 1) := by
  induction count with
  | zero => simp
  | succ count ih =>
    rw [List.range_succ, List.filter_append, ih]
    by_cases within : count + 1 ≤ bound
    · simp [within, Nat.min_eq_left (Nat.le_of_succ_le within), List.range_succ (n := count + 1)]
    · have big : bound ≤ count := by omega
      simp [within, Nat.min_eq_right big, Nat.min_eq_right (Nat.le_succ_of_le big)]

theorem min_length_takeWhile_append (accepts : Char → Bool) (rest tail : List Char) :
    min ((rest ++ tail).takeWhile accepts).length rest.length =
      (rest.takeWhile accepts).length := by
  induction rest with
  | nil => simp
  | cons c rest ih =>
    rw [List.cons_append, List.takeWhile_cons, List.takeWhile_cons]
    split
    · simp only [List.length_cons]
      omega
    · simp

theorem spells_append {same : Char → Char → Bool} {spelling : List Char} (rest tail : List Char) :
    spells same spelling (rest ++ tail) = true ∧ spelling.length ≤ rest.length ↔
      spells same spelling rest = true := by
  induction spelling generalizing rest with
  | nil => simp [spells]
  | cons c spelling ih =>
    cases rest with
    | nil => simp [spells]
    | cons d rest =>
      rw [List.cons_append, spells, spells, Bool.and_eq_true, Bool.and_eq_true,
        ← ih rest, and_assoc, List.length_cons, List.length_cons,
        Nat.add_le_add_iff_right]

/-- Where some sources give nothing, they can be left out beforehand. -/
theorem flatMap_filter_eq {kept : Nat → Prop} [DecidablePred kept] {found within : Nat → List Nat}
    (inside : ∀ count, kept count → found count = within count)
    (outside : ∀ count, ¬kept count → found count = []) (counts : List Nat) :
    (counts.filter kept).flatMap within = counts.flatMap found := by
  induction counts with
  | nil => rfl
  | cons count counts ih =>
    by_cases holds : kept count
    · rw [List.filter_cons, if_pos (decide_eq_true holds), List.flatMap_cons, List.flatMap_cons, ih,
        inside count holds]
    · rw [List.filter_cons, if_neg (by simpa using holds), List.flatMap_cons, ih,
        outside count holds, List.nil_append]

/-- What a pattern takes within a text does not hang on what comes behind the text, unless a word
goes on there. -/
theorem filter_lengths_append (pattern : Pattern) (afterWord : Bool) (rest : List Char)
    {tail : List Char} (apart : Stops isWord tail) :
    (pattern.lengths afterWord (rest ++ tail)).filter (· ≤ rest.length) =
      pattern.lengths afterWord rest := by
  induction pattern generalizing afterWord rest with
  | nothing => simp [lengths]
  | edge =>
    have neighbour : (rest ++ tail).head?.any isWord = rest.head?.any isWord := by
      cases rest with
      | nil =>
        cases tail with
        | nil => rfl
        | cons c tail => exact apart c rfl
      | cons c rest => rfl
    rw [lengths, lengths, neighbour]
    split <;> simp
  | one accepts =>
    cases rest with
    | nil =>
      rw [lengths, lengths]
      split <;> simp
    | cons c rest =>
      rw [lengths, lengths, List.cons_append, List.head?_cons, List.head?_cons]
      split <;> simp
  | many accepts =>
    rw [lengths, lengths, List.filter_reverse, filter_range_le, min_length_takeWhile_append]
  | few accepts => rw [lengths, lengths, filter_range_le, min_length_takeWhile_append]
  | word same spellings =>
    rw [lengths, lengths, List.filter_map, List.filter_filter]
    congr 1
    refine List.filter_congr fun spelling _ => ?_
    rw [Bool.eq_iff_iff, ← spells_append rest tail]
    simp [and_comm]
  | next first second ihFirst ihSecond =>
    rw [lengths, lengths, ← ihFirst afterWord rest, List.filter_flatMap]
    have inside (count : Nat) (within : count ≤ rest.length) :
        ((second.lengths (endsInWord afterWord ((rest ++ tail).take count))
          ((rest ++ tail).drop count)).map (count + ·)).filter (· ≤ rest.length) =
        (second.lengths (endsInWord afterWord (rest.take count)) (rest.drop count)).map
          (count + ·) := by
      rw [List.take_append_of_le_length within, List.drop_append_of_le_length within,
        List.filter_map, ← ihSecond _ (rest.drop count), List.length_drop]
      congr 1
      refine List.filter_congr fun more _ => ?_
      rw [Function.comp_apply, decide_eq_decide]
      omega
    have outside (count : Nat) (beyond : ¬count ≤ rest.length) :
        ((second.lengths (endsInWord afterWord ((rest ++ tail).take count))
          ((rest ++ tail).drop count)).map (count + ·)).filter (· ≤ rest.length) = [] := by
      rw [List.filter_eq_nil_iff]
      intro total member
      obtain ⟨more, _, rfl⟩ := List.mem_map.mp member
      rw [decide_eq_true_eq]
      omega
    exact (flatMap_filter_eq inside outside _).symm
  | either first second ihFirst ihSecond =>
    rw [lengths, lengths, List.filter_append, ihFirst, ihSecond]

/-- A pattern takes nothing of a tail together with something before it. -/
def ShortOf (pattern : Pattern) (tail : List Char) : Prop :=
  ∀ (place : Place) (rest used : List Char), place.rest = rest ++ tail →
    pattern.Takes place used → used.length ≤ rest.length

theorem ShortOf.lengths_append {pattern : Pattern} {tail : List Char} (short : pattern.ShortOf tail)
    (apart : Stops isWord tail) (afterWord : Bool) (rest : List Char) :
    pattern.lengths afterWord (rest ++ tail) = pattern.lengths afterWord rest := by
  rw [← filter_lengths_append pattern afterWord rest apart, eq_comm, List.filter_eq_self]
  intro count member
  obtain ⟨place, rfl, same⟩ := exists_place afterWord (rest ++ tail)
  rw [← same] at member
  obtain ⟨within, taken⟩ := mem_lengths_iff.mp member
  have bound := short place rest _ same taken
  rw [List.length_take_of_le within] at bound
  exact decide_eq_true bound

/-- A walk goes on behind a line as it does at the start of a text. -/
theorem ShortOf.startsFrom_append {pattern : Pattern} {back : List Char}
    (short : pattern.ShortOf ('\n' :: back)) {index skip : Nat} {afterWord : Bool}
    {front : List Char} (within : skip ≤ front.length) :
    pattern.startsFrom index afterWord skip (front ++ '\n' :: back) =
      pattern.startsFrom index afterWord skip front ++
        pattern.startsFrom (index + front.length + 1) false 0 back := by
  have apart : Stops isWord ('\n' :: back) := stops_cons (by decide)
  induction front generalizing index skip afterWord with
  | nil =>
    have free : skip = 0 := Nat.le_zero.mp within
    have here := short.lengths_append apart afterWord []
    rw [List.nil_append] at here
    have newline : isWord '\n' = false := by decide
    rw [List.nil_append, startsFrom, startsFrom, here, if_pos free, newline]
    cases found : pattern.lengths afterWord [] with
    | nil => simp
    | cons count counts =>
      have member : count ∈ pattern.lengths afterWord [] := found ▸ List.mem_cons_self
      have none : count = 0 := Nat.le_zero.mp (le_length_of_mem_lengths member)
      simp [free, none]
  | cons c front ih =>
    have here := short.lengths_append apart afterWord (c :: front)
    have total : index + 1 + front.length + 1 = index + (c :: front).length + 1 := by
      rw [List.length_cons]
      omega
    rw [List.length_cons] at within
    rw [List.cons_append] at here
    rw [List.cons_append, startsFrom, startsFrom, here, ← total]
    split
    · cases found : pattern.lengths afterWord (c :: front) with
      | nil => exact ih (Nat.zero_le _)
      | cons count counts =>
        have member : count ∈ pattern.lengths afterWord (c :: front) := found ▸ List.mem_cons_self
        have bound := le_length_of_mem_lengths member
        rw [List.length_cons] at bound
        rw [List.head?_cons]
        dsimp only
        rw [ih (by omega), List.cons_append]
    · exact ih (by omega)

theorem startsFrom_eq_map (pattern : Pattern) (index skip : Nat) (afterWord : Bool)
    (text : List Char) :
    pattern.startsFrom index afterWord skip text =
      (pattern.startsFrom 0 afterWord skip text).map (index + ·) := by
  induction text generalizing index skip afterWord with
  | nil =>
    rw [startsFrom, startsFrom]
    split <;> rfl
  | cons c text ih =>
    have shifted : (index + ·) ∘ (0 + 1 + ·) = (index + 1 + ·) := by
      funext start
      rw [Function.comp_apply]
      omega
    have later (skip : Nat) : pattern.startsFrom (index + 1) (isWord c) skip text =
        (pattern.startsFrom (0 + 1) (isWord c) skip text).map (index + ·) := by
      rw [ih, ih (0 + 1), List.map_map, shifted]
    rw [startsFrom, startsFrom]
    split
    · split
      · rw [List.map_cons, later]
        rfl
      · exact later 0
    · exact later (skip - 1)

namespace ShortOf

variable {pattern first second : Pattern} {front back tail : List Char}

theorem starts_append (short : pattern.ShortOf ('\n' :: back)) (front : List Char) :
    pattern.starts (front ++ '\n' :: back) =
      pattern.starts front ++ (pattern.starts back).map (front.length + 1 + ·) := by
  rw [starts, short.startsFrom_append (Nat.zero_le _), Nat.zero_add,
    startsFrom_eq_map pattern (front.length + 1)]
  rfl

theorem count_append (short : pattern.ShortOf ('\n' :: back)) (front : List Char) :
    pattern.count (front ++ '\n' :: back) = pattern.count front + pattern.count back := by
  simp only [count_eq_length_starts, short.starts_append, List.length_append, List.length_map]

theorem occursIn_append (short : pattern.ShortOf ('\n' :: back)) (front : List Char) :
    pattern.occursIn (front ++ '\n' :: back) = (pattern.occursIn front || pattern.occursIn back) := by
  rw [Bool.eq_iff_iff, Bool.or_eq_true, occursIn_iff_starts, occursIn_iff_starts,
    occursIn_iff_starts, short.starts_append, Ne, List.append_eq_nil_iff, List.map_eq_nil_iff,
    Classical.not_and_iff_not_or_not]

theorem either (first' : first.ShortOf tail) (second' : second.ShortOf tail) :
    (either first second).ShortOf tail := by
  intro place rest used whole taken
  rcases takes_either.mp taken with one | other
  · exact first' place rest used whole one
  · exact second' place rest used whole other

theorem behind_edge (short : second.ShortOf tail) : (next edge second).ShortOf tail := by
  intro place rest used whole taken
  obtain ⟨_, _, rfl, atEdge, others⟩ := takes_next.mp taken
  obtain ⟨rfl, _⟩ := takes_edge.mp atEdge
  exact short place rest _ whole (by simpa using others)

/-- What is taken lies within the text, or takes all of it and something of its tail. -/
theorem within_or_across {used rest : List Char} (inside : used <+: rest ++ tail) :
    used.length ≤ rest.length ∨ ∃ more, more ≠ [] ∧ used = rest ++ more ∧ more <+: tail := by
  obtain ⟨left, whole⟩ := inside
  rcases List.append_eq_append_iff.mp whole with ⟨later, rfl, _⟩ | ⟨more, rfl, parts⟩
  · exact Or.inl (by simp)
  · by_cases none : more = []
    · exact Or.inl (by simp [none])
    · exact Or.inr ⟨more, none, rfl, left, parts.symm⟩

/-- What takes no newline takes nothing across one. -/
theorem of_newline_not_mem (plain : ∀ place used, pattern.Takes place used → '\n' ∉ used) :
    pattern.ShortOf ('\n' :: back) := by
  intro place rest used whole taken
  rcases within_or_across (whole ▸ taken.1) with within | ⟨more, some', rfl, start⟩
  · exact within
  · obtain ⟨c, later, rfl⟩ := List.exists_cons_of_ne_nil some'
    obtain ⟨rfl, _⟩ := List.cons_prefix_cons.mp start
    exact absurd (List.mem_append_right rest List.mem_cons_self) (plain place _ taken)

/-- What takes a last character that is not in a tail takes nothing of the tail. -/
theorem of_last {c : Char} (absent : c ∉ tail)
    (last : ∀ place used, pattern.Takes place used → used.getLast? = some c) :
    pattern.ShortOf tail := by
  intro place rest used whole taken
  rcases within_or_across (whole ▸ taken.1) with within | ⟨more, some', rfl, start⟩
  · exact within
  · have ends := last place _ taken
    rw [List.getLast?_append, List.getLast?_eq_some_getLast some', Option.some_or,
      ← List.getLast?_eq_some_getLast some'] at ends
    exact absurd (start.subset (List.mem_of_getLast? ends)) absent

/-- No blanks and a parenthesis are taken across a line break, unless they stand behind it. -/
theorem blanks_char (shut : Stops (· == '(') (trimStart back)) :
    (next blanks (char '(')).ShortOf ('\n' :: back) := by
  intro place rest used whole taken
  obtain ⟨inside, gap, _, rfl, gapBlank, rfl⟩ :=
    ((describes_many isBlank).next (describes_char '(') place used).mp taken
  rcases within_or_across (whole ▸ inside) with within | ⟨more, some', same, start⟩
  · exact within
  · obtain ⟨c, later, rfl⟩ := List.exists_cons_of_ne_nil some'
    obtain ⟨rfl, behind, rfl⟩ := List.cons_prefix_cons.mp start
    rcases List.eq_nil_or_concat later with rfl | ⟨between, d, rfl⟩
    · exact absurd (List.append_inj_right' same rfl) (by decide)
    · have ends : gap ++ ['('] = (rest ++ '\n' :: between) ++ [d] := by simpa using same
      obtain ⟨rfl, last⟩ := List.append_inj' ends rfl
      cases last
      have betweenBlank : ∀ d ∈ between, isBlank d = true := fun d member =>
        gapBlank d (List.mem_append_right rest (List.mem_cons_of_mem _ member))
      rw [List.concat_eq_append, List.append_assoc, List.singleton_append, trimStart,
        dropWhile_append_cons betweenBlank (by decide)] at shut
      exact absurd (shut '(' rfl) (by decide)

/-- A name and its parenthesis are on one line, or there are only blanks between them. -/
theorem call {names : List String} (plain : ∀ name ∈ names, '\n' ∉ name.toList)
    (shut : Stops (· == '(') (trimStart back)) :
    (sequence [exactly names, blanks, char '(']).ShortOf ('\n' :: back) := by
  intro place rest used whole taken
  obtain ⟨name, behind, rfl, named, others⟩ := takes_next.mp taken
  obtain ⟨inside, spelling, listed, rfl⟩ := takes_exactly.mp named
  rcases within_or_across (whole ▸ inside) with within | ⟨more, some', same, start⟩
  · obtain ⟨later, rfl⟩ : spelling.toList <+: rest :=
      List.prefix_of_prefix_length_le (whole ▸ inside) (List.prefix_append rest _) within
    have rest' : (place.after spelling.toList.length).rest = later ++ '\n' :: back := by
      rw [Place.after_rest, whole, List.append_assoc, List.drop_left]
    have bound := blanks_char shut _ later behind rest' others
    rw [List.length_append, List.length_append]
    omega
  · obtain ⟨c, later, rfl⟩ := List.exists_cons_of_ne_nil some'
    obtain ⟨rfl, _⟩ := List.cons_prefix_cons.mp start
    exact absurd (same ▸ List.mem_append_right rest List.mem_cons_self) (plain spelling listed)

end ShortOf

/-- The last pattern of a sequence takes what the sequence takes last. -/
theorem exists_takes_last {patterns : List Pattern} (last : Pattern) {place : Place}
    {used : List Char} (ends : patterns.getLast? = some last)
    (taken : (sequence patterns).Takes place used) :
    ∃ behind front back, used = front ++ back ∧ last.Takes behind back := by
  obtain ⟨patterns, rfl⟩ := List.getLast?_eq_some_iff.mp ends
  obtain ⟨front, back, rfl, -, inLast⟩ := (takes_sequence_append patterns).mp taken
  exact ⟨place.after front.length, front, back, rfl, inLast⟩

/-- A word between edges is on one line if none of its spellings has a line break. -/
theorem ShortOf.token {names : List String} {back : List Char}
    (plain : ∀ name ∈ names, '\n' ∉ name.toList) :
    (sequence [edge, anyCase names, edge]).ShortOf ('\n' :: back) := by
  refine ShortOf.of_newline_not_mem fun place used taken member => ?_
  obtain ⟨-, among, -, -⟩ := takes_token.mp taken
  obtain ⟨name, listed, same⟩ := List.any_eq_true.mp among
  have kept : '\n' ∈ folded used := List.mem_map_of_mem member
  rw [← beq_iff_eq.mp same] at kept
  obtain ⟨c, spelt, isNewline⟩ := List.mem_map.mp kept
  obtain rfl := eq_of_foldCase_eq isNewline (by decide)
  exact plain name listed spelt

end Pattern

end SnippetAudit
