import SnippetAudit.Proofs.Archive.Scraps
import SnippetAudit.Proofs.Archive.Trial

/-!
The last line of an archive while attempts to store reports are cut short. The start of a line that
has been cut off stays where it is, and the next line is written right behind it; so an entry is
listed if it finds a fresh line and leaves all of its own, but perhaps for the newline.
-/

namespace SnippetAudit

open Text
open ArchiveEntry (Spoilt)

/-- What stands behind the last newline of an archive: nothing, the line of an attempt that lacks its
newline and nothing else, or the start of a line that is no entry however it goes on. -/
inductive Tail where
  | fresh
  | line (trial : Trial)
  | spoilt

namespace Tail

variable {tail : Tail} {trial : Trial} {text front : List Char}

def cutShort (tail : Tail) (trial : Trial) : Tail :=
  match tail with
  | fresh => if trial.written.size + 1 = trial.wanted.size then line trial else spoilt
  | _ => spoilt

/-- What stands behind the last newline after one more attempt. -/
def after (tail : Tail) (trial : Trial) : Tail :=
  if trial.written.size = 0 then tail
  else if trial.Fits then fresh
  else tail.cutShort trial

/-- The attempts whose entries are on a line that one more attempt ends. -/
def gains (tail : Tail) (trial : Trial) : List Trial :=
  match tail with
  | fresh => if trial.Fits then [trial] else []
  | _ => []

/-- The attempts whose entries are on the line that nothing ends. -/
def last : Tail → List Trial
  | line trial => [trial]
  | _ => []

/-- The attempts whose entries are listed after some more attempts. -/
def listed (tail : Tail) : List Trial → List Trial
  | [] => tail.last
  | trial :: trials => tail.gains trial ++ (tail.after trial).listed trials

def Shows : Tail → List Char → Prop
  | fresh, text => text = []
  | line trial, text => trial.entry.Storable ∧ text = trial.entry.line.toList
  | spoilt, text => Spoilt text

theorem Shows.newline_not_mem (shows' : tail.Shows text) : '\n' ∉ text := by
  cases tail with
  | fresh =>
    rw [Shows] at shows'
    rw [shows']
    exact List.not_mem_nil
  | line trial =>
    obtain ⟨storable, rfl⟩ := shows'
    exact ArchiveEntry.newline_not_mem_line storable
  | spoilt => exact Spoilt.newline_not_mem shows'

theorem line_ne_nil (entry : ArchiveEntry) : entry.line.toList ≠ [] := by
  obtain ⟨more, start⟩ := entry.exists_line_eq
  rw [start]
  exact List.cons_ne_nil _ _

theorem Shows.append (shows' : tail.Shows text) (open' : tail ≠ fresh)
    (storable : trial.entry.Storable) (part : front <+: trial.entry.line.toList)
    (some' : front ≠ []) : Spoilt (text ++ front) := by
  cases tail with
  | fresh => exact absurd rfl open'
  | line first =>
    obtain ⟨firstStorable, rfl⟩ := shows'
    exact .glued firstStorable (.single storable part some') some'
  | spoilt => exact Spoilt.append shows' storable part some'

theorem Shows.entriesOf (shows' : tail.Shows text) :
    ArchiveFile.entriesOf (String.ofList text) = tail.last.map Trial.entry := by
  rw [ArchiveFile.entriesOf_eq, String.toList_ofList, endedLines_of_not_mem shows'.newline_not_mem]
  cases tail with
  | fresh =>
    have empty : text = [] := shows'
    rw [if_pos empty]
    rfl
  | line trial =>
    obtain ⟨storable, rfl⟩ := shows'
    rw [if_neg (line_ne_nil trial.entry),
      List.filterMap_cons_some (ArchiveEntry.ofLineOrBlank?_line storable)]
    rfl
  | spoilt =>
    have foreign : ArchiveEntry.ofLineOrBlank? text = none := (Spoilt.isForeign shows').ofLineOrBlank?
    split
    · rfl
    · rw [List.filterMap_cons_none foreign]
      rfl

theorem gains_of_not_fits (short : ¬trial.Fits) : tail.gains trial = [] := by
  cases tail with
  | fresh => exact if_neg short
  | line first => rfl
  | spoilt => rfl

theorem gains_of_open (open' : tail ≠ fresh) : tail.gains trial = [] := by
  cases tail with
  | fresh => exact absurd rfl open'
  | line first => rfl
  | spoilt => rfl

theorem after_of_fits (fits : trial.Fits) : tail.after trial = fresh := by
  rw [after, if_neg (Trial.ne_zero_of_fits fits), if_pos fits]

theorem cutShort_of_open (open' : tail ≠ fresh) : tail.cutShort trial = spoilt := by
  cases tail with
  | fresh => exact absurd rfl open'
  | line first => rfl
  | spoilt => rfl

/-- What an attempt that does not fit leaves goes on with the line. -/
theorem Shows.after_of_short (shows' : tail.Shows text) (storable : trial.entry.Storable)
    (leaves : trial.Leaves front) (short : ¬trial.Fits) :
    (tail.after trial).Shows (text ++ front) := by
  cases leaves with
  | nothing none =>
    rw [after, if_pos none, List.append_nil]
    exact shows'
  | everything fits => exact absurd fits short
  | line most =>
    have some' : trial.written.size ≠ 0 := by
      have size := trial.wanted_size
      have full := Trial.utf8ByteSize_pos (line_ne_nil trial.entry)
      rw [String.ofList_toList] at full
      omega
    by_cases open' : tail = fresh
    · subst open'
      have empty : text = [] := shows'
      rw [after, if_neg some', if_neg short, cutShort, if_pos most, empty]
      exact ⟨storable, rfl⟩
    · rw [after, if_neg some', if_neg short, cutShort_of_open open']
      exact shows'.append open' storable List.prefix_rfl (line_ne_nil trial.entry)
  | part some' most cut full =>
    have before : front <+: trial.entry.line.toList := by
      obtain ⟨missing, _, whole⟩ := cut
      exact ⟨missing, whole⟩
    by_cases open' : tail = fresh
    · subst open'
      have empty : text = [] := shows'
      have other : ¬trial.written.size + 1 = trial.wanted.size := Nat.ne_of_lt most
      rw [after, if_neg (Nat.ne_of_gt some'), if_neg short, cutShort, if_neg other, empty]
      have spoilt := Spoilt.cut storable cut full .nil
      rwa [List.append_nil] at spoilt
    · rw [after, if_neg (Nat.ne_of_gt some'), if_neg short, cutShort_of_open open']
      exact shows'.append open' storable before full

/-- An attempt that fits ends the line, which is its own if nothing stood there before. -/
theorem Shows.entriesOf_of_fits (shows' : tail.Shows text) (storable : trial.entry.Storable)
    (fits : trial.Fits) (back : List Char) :
    ArchiveFile.entriesOf (String.ofList (text ++ (trial.entry.line.toList ++ '\n' :: back))) =
      (tail.gains trial).map Trial.entry ++ ArchiveFile.entriesOf (String.ofList back) := by
  have plain : '\n' ∉ text ++ trial.entry.line.toList := by
    intro member
    rcases List.mem_append.mp member with inText | inLine
    · exact shows'.newline_not_mem inText
    · exact ArchiveEntry.newline_not_mem_line storable inLine
  rw [← List.append_assoc, ArchiveFile.entriesOf_append_newline plain]
  by_cases open' : tail = fresh
  · subst open'
    have empty : text = [] := shows'
    rw [empty, List.nil_append, ArchiveEntry.dropReturn_line storable,
      ArchiveEntry.ofLineOrBlank?_line storable, gains, if_pos fits]
    rfl
  · have spoilt := shows'.append open' storable List.prefix_rfl (line_ne_nil trial.entry)
    rw [spoilt.isForeign.dropReturn.ofLineOrBlank?, gains_of_open open']
    rfl

/-- What is listed of a file in which some attempts have left something, none of them a part of a
character. -/
theorem exists_text_of_listed {trials : List Trial} (shows' : tail.Shows text)
    (storable : ∀ trial ∈ trials, trial.entry.Storable)
    (valid : ∀ trial ∈ trials, trial.written.IsValidUTF8) :
    ∃ back, Trial.bytesOf trials = (String.ofList back).toUTF8 ∧
      ArchiveFile.entriesOf (String.ofList (text ++ back)) =
        (tail.listed trials).map Trial.entry := by
  induction trials generalizing tail text with
  | nil =>
    refine ⟨[], rfl, ?_⟩
    rw [List.append_nil]
    exact shows'.entriesOf
  | cons trial trials ih =>
    have firstStorable := storable trial List.mem_cons_self
    obtain ⟨front, leaves, bytes⟩ := Trial.exists_leaves (valid trial List.mem_cons_self)
    have others : ∀ other ∈ trials, other.entry.Storable :=
      fun other member => storable other (.tail _ member)
    have othersValid : ∀ other ∈ trials, other.written.IsValidUTF8 :=
      fun other member => valid other (.tail _ member)
    have joined : ∀ {back : List Char}, Trial.bytesOf trials = (String.ofList back).toUTF8 →
        Trial.bytesOf (trial :: trials) = (String.ofList (front ++ back)).toUTF8 := by
      intro back rest
      rw [Trial.bytesOf_cons, bytes, rest, String.ofList_append, String.toUTF8_eq_toByteArray,
        String.toUTF8_eq_toByteArray, String.toUTF8_eq_toByteArray, String.toByteArray_append]
    by_cases fits : trial.Fits
    · have fresh' : (tail.after trial).Shows [] := by
        rw [after_of_fits fits]
        exact (rfl : Shows fresh [])
      obtain ⟨back, rest, entries⟩ := ih fresh' others othersValid
      refine ⟨front ++ back, joined rest, ?_⟩
      have whole : front ++ back = trial.entry.line.toList ++ '\n' :: back := by
        rw [leaves.eq_of_fits fits, List.append_assoc, List.singleton_append]
      rw [List.nil_append] at entries
      rw [whole, shows'.entriesOf_of_fits firstStorable fits, entries, listed, List.map_append]
    · have later := shows'.after_of_short firstStorable leaves fits
      obtain ⟨back, rest, entries⟩ := ih later others othersValid
      refine ⟨front ++ back, joined rest, ?_⟩
      rw [← List.append_assoc, entries, listed, gains_of_not_fits fits, List.nil_append]

/-- An attempt that leaves something leaves a fresh line if and only if it fits. -/
theorem after_eq_fresh_iff (some' : trial.written.size ≠ 0) :
    tail.after trial = fresh ↔ trial.Fits := by
  rw [after, if_neg some']
  by_cases fits : trial.Fits
  · rw [if_pos fits]
    exact ⟨fun _ => fits, fun _ => rfl⟩
  · rw [if_neg fits]
    refine ⟨fun same => ?_, fun same => absurd same fits⟩
    unfold cutShort at same
    split at same
    · split at same <;> cases same
    · cases same

theorem foldl_after_eq_fresh_iff {trials : List Trial} :
    trials.foldl after tail = fresh ↔
      (trials.filter fun trial => trial.written.size ≠ 0).getLast?.elim (tail = fresh)
        Trial.Fits := by
  induction trials generalizing tail with
  | nil => rfl
  | cons trial trials ih =>
    rw [List.foldl_cons, ih]
    by_cases none : trial.written.size = 0
    · rw [List.filter_cons_of_neg (by simp [none]), after, if_pos none]
    · rw [List.filter_cons_of_pos (by simp [none]), List.getLast?_cons]
      cases (trials.filter fun trial => trial.written.size ≠ 0).getLast? with
      | none => exact after_eq_fresh_iff none
      | some last => rfl

theorem foldl_after_fresh_iff {trials : List Trial} :
    trials.foldl after fresh = fresh ↔
      ∀ last ∈ (trials.filter fun trial => trial.written.size ≠ 0).getLast?, last.Fits := by
  rw [foldl_after_eq_fresh_iff]
  cases (trials.filter fun trial => trial.written.size ≠ 0).getLast? with
  | none => simp
  | some last => simp

theorem not_fits_of_mem_last (closed : ∀ other ∈ tail.last, ¬other.Fits) (trial : Trial) :
    ∀ other ∈ (tail.after trial).last, ¬other.Fits := by
  intro other member
  unfold after at member
  split at member
  · exact closed other member
  · rename_i some'
    split at member
    · cases member
    · rename_i short
      unfold cutShort at member
      split at member
      · split at member
        · rw [List.mem_singleton.mp member]
          exact short
        · cases member
      · cases member

/-- Of the attempts that fit, none is listed twice or out of order. -/
theorem filter_listed_sublist {trials : List Trial} (closed : ∀ other ∈ tail.last, ¬other.Fits) :
    ((tail.listed trials).filter Trial.Fits).Sublist (trials.filter Trial.Fits) := by
  induction trials generalizing tail with
  | nil =>
    have none : tail.last.filter Trial.Fits = [] := by
      simpa [List.filter_eq_nil_iff] using closed
    rw [listed, none]
    exact List.nil_sublist _
  | cons trial trials ih =>
    have later := ih (not_fits_of_mem_last closed trial)
    rw [listed, List.filter_append]
    by_cases fits : trial.Fits
    · rw [List.filter_cons_of_pos (by simpa using fits)]
      cases tail with
      | fresh =>
        rw [gains, if_pos fits, List.filter_cons_of_pos (by simpa using fits)]
        exact later.cons_cons trial
      | line first => exact later.cons trial
      | spoilt => exact later.cons trial
    · rw [gains_of_not_fits fits, List.filter_cons_of_neg (by simpa using fits)]
      exact later

/-- The attempts that fit are all listed if and only if each of them finds a fresh line. -/
theorem filter_sublist_listed_iff {trials : List Trial}
    (closed : ∀ other ∈ tail.last, ¬other.Fits) :
    (trials.filter Trial.Fits).Sublist (tail.listed trials) ↔
      ∀ before next later, trials = before ++ next :: later → next.Fits →
        before.foldl after tail = fresh := by
  induction trials generalizing tail with
  | nil =>
    refine ⟨fun _ before next later parts => ?_, fun _ => List.nil_sublist _⟩
    cases before <;> cases parts
  | cons trial trials ih =>
    have split : (∀ before next later, trial :: trials = before ++ next :: later → next.Fits →
        before.foldl after tail = fresh) ↔
        (trial.Fits → tail = fresh) ∧ ∀ before next later, trials = before ++ next :: later →
          next.Fits → before.foldl after (tail.after trial) = fresh := by
      constructor
      · intro each
        exact ⟨fun fits => each [] trial trials rfl fits, fun before next later parts fits =>
          each (trial :: before) next later (by rw [parts, List.cons_append]) fits⟩
      · intro both before next later parts fits
        cases before with
        | nil =>
          cases parts
          exact both.1 fits
        | cons first before =>
          cases parts
          exact both.2 before next later rfl fits
    rw [split, ← ih (not_fits_of_mem_last closed trial), listed]
    by_cases fits : trial.Fits
    · rw [List.filter_cons_of_pos (by simpa using fits)]
      by_cases open' : tail = fresh
      · subst open'
        rw [gains, if_pos fits, List.singleton_append, List.cons_sublist_cons]
        exact ⟨fun kept => ⟨fun _ => rfl, kept⟩, fun both => both.2⟩
      · refine ⟨fun kept => ?_, fun both => absurd (both.1 fits) open'⟩
        rw [gains_of_open open', List.nil_append] at kept
        have fewer := (kept.filter Trial.Fits).trans
          (filter_listed_sublist (not_fits_of_mem_last closed trial))
        have count := fewer.length_le
        rw [List.filter_cons_of_pos (by simpa using fits), List.filter_filter] at count
        simp only [Bool.and_self, List.length_cons] at count
        omega
    · rw [List.filter_cons_of_neg (by simpa using fits), gains_of_not_fits fits, List.nil_append]
      exact ⟨fun kept => ⟨fun whole => absurd whole fits, kept⟩, fun both => both.2⟩

end Tail

end SnippetAudit
