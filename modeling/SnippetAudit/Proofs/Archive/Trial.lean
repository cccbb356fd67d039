import SnippetAudit.Proofs.Archive.File
import SnippetAudit.Proofs.Archive.Line
import SnippetAudit.Proofs.Json.Cut
import SnippetAudit.Proofs.Text.Encoding

/-!
Attempts to store a report on a disk that may fill up, and what they leave in the file: the bytes of
their line that there is room for.
-/

namespace SnippetAudit

open Text
open Json (Cut)

/-- An attempt to store a report at some instant, on a disk with room for so many bytes more. -/
structure Trial where
  now : Instant
  room : Option Nat
  code : String
  report : Report

namespace Trial

variable {trial : Trial} {front : List Char}

def entry (trial : Trial) : ArchiveEntry :=
  .make trial.code trial.report trial.now

def wanted (trial : Trial) : ByteArray :=
  ArchiveFile.lineBytes trial.entry

/-- The bytes that there is room for. -/
def written (trial : Trial) : ByteArray :=
  Disk.fitting ⟨[], trial.room⟩ trial.wanted

/-- There is room for all of the bytes. -/
def Fits (trial : Trial) : Prop :=
  trial.written.size = trial.wanted.size

instance (trial : Trial) : Decidable trial.Fits :=
  inferInstanceAs (Decidable (_ = _))

def bytesOf (trials : List Trial) : ByteArray :=
  trials.foldr (fun trial rest => trial.written ++ rest) .empty

/-- What an attempt leaves in the file, if no character is cut. -/
inductive Leaves (trial : Trial) : List Char → Prop
  | nothing (none : trial.written.size = 0) : Leaves trial []
  | everything (fits : trial.Fits) : Leaves trial (trial.entry.line.toList ++ ['\n'])
  | line (short : trial.written.size + 1 = trial.wanted.size) : Leaves trial trial.entry.line.toList
  | part {front : List Char} (some' : 0 < trial.written.size)
    (short : trial.written.size + 1 < trial.wanted.size) (cut : Cut front trial.entry.line.toList)
    (full : front ≠ []) : Leaves trial front

theorem wanted_size (trial : Trial) :
    trial.wanted.size = trial.entry.line.utf8ByteSize + 1 := by
  rw [wanted, ArchiveFile.lineBytes, String.toUTF8_eq_toByteArray, String.size_toByteArray,
    String.utf8ByteSize_append]
  rfl

theorem written_eq (trial : Trial) :
    ∃ stop, trial.written = trial.wanted.extract 0 stop := by
  unfold written Disk.fitting
  split
  · exact ⟨_, ByteArray.extract_zero_size.symm⟩
  · rename_i room _
    exact ⟨room, rfl⟩

theorem bytesOf_cons (trial : Trial) (trials : List Trial) :
    bytesOf (trial :: trials) = trial.written ++ bytesOf trials := rfl

theorem ne_zero_of_fits (fits : trial.Fits) : trial.written.size ≠ 0 := by
  rw [fits, trial.wanted_size]
  exact Nat.succ_ne_zero _

theorem Leaves.eq_of_fits (leaves : trial.Leaves front) (fits : trial.Fits) :
    front = trial.entry.line.toList ++ ['\n'] := by
  cases leaves with
  | nothing none => exact absurd none (ne_zero_of_fits fits)
  | everything fits => rfl
  | line most =>
    rw [fits] at most
    omega
  | part some' most cut full =>
    rw [fits] at most
    omega

theorem utf8ByteSize_pos {chars : List Char} (some' : chars ≠ []) :
    0 < (String.ofList chars).utf8ByteSize := by
  refine Nat.pos_of_ne_zero fun zero => some' ?_
  exact String.ofList_eq_empty_iff.mp (String.utf8ByteSize_eq_zero_iff.mp zero)

theorem exists_leaves (valid : trial.written.IsValidUTF8) :
    ∃ front, trial.Leaves front ∧ trial.written = (String.ofList front).toUTF8 := by
  obtain ⟨stop, part⟩ := trial.written_eq
  rw [part] at valid
  obtain ⟨front, before, same⟩ := exists_prefix_of_isValidUTF8 valid
  have bytes : trial.written = (String.ofList front).toUTF8 := part.trans same
  have size : trial.written.size = (String.ofList front).utf8ByteSize := by
    rw [bytes, String.toUTF8_eq_toByteArray, String.size_toByteArray]
  have all := trial.wanted_size
  refine ⟨front, ?_, bytes⟩
  rw [String.toList_append] at before
  rcases List.prefix_concat_iff.mp before with rfl | ⟨missing, whole⟩
  · refine .everything ?_
    rw [Fits, size, all, String.ofList_append, String.ofList_toList, String.utf8ByteSize_append]
    rfl
  · have parts : trial.entry.line = String.ofList front ++ String.ofList missing := by
      rw [← String.ofList_append, whole, String.ofList_toList]
    rw [parts, String.utf8ByteSize_append, ← size] at all
    by_cases none : missing = []
    · rw [none, List.append_nil] at whole
      rw [whole]
      refine .line ?_
      rw [all, none]
      rfl
    · have more := utf8ByteSize_pos none
      by_cases empty : front = []
      · rw [empty] at size ⊢
        exact .nothing size
      · have some' := utf8ByteSize_pos empty
        exact .part (by omega) (by omega) ⟨missing, none, whole⟩ empty

theorem begins_written (trial : Trial) : Begins trial.written := by
  obtain ⟨stop, part⟩ := trial.written_eq
  rw [part]
  exact (begins_of_isValidUTF8 (trial.entry.line ++ "\n").isValidUTF8).extract stop

theorem begins_bytesOf (trials : List Trial) : Begins (bytesOf trials) := by
  induction trials with
  | nil => exact begins_empty
  | cons trial trials ih =>
    rw [bytesOf_cons]
    exact trial.begins_written.append ih

/-- A file is text if and only if no character has been cut in it. -/
theorem bytesOf_isValidUTF8_iff {trials : List Trial} :
    (bytesOf trials).IsValidUTF8 ↔ ∀ trial ∈ trials, trial.written.IsValidUTF8 := by
  induction trials with
  | nil => simp [bytesOf]
  | cons trial trials ih =>
    rw [bytesOf_cons, isValidUTF8_append_iff (begins_bytesOf trials), ih]
    simp

end Trial

end SnippetAudit
