import SnippetAudit.Proofs.Archive.Contents
import SnippetAudit.Proofs.Json.Severed

/-!
Lines that are left unfinished. When a line of an entry is cut off, the next one is written right
behind it, and what has become one line then is no entry, whether the line that was cut off lacks
anything but its newline or not.
-/

namespace SnippetAudit.ArchiveEntry

open Text
open Json (Alien Cut maxDepth)

variable {entry : ArchiveEntry} {front rest text : List Char}

theorem alien_append (storable : entry.Storable) (part : front <+: entry.line.toList)
    (some' : front ≠ []) (alien : Alien rest) : Alien (front ++ rest) := by
  obtain ⟨more, start⟩ := exists_line_eq entry
  rw [line_toList] at start part
  exact alien.append (carried_toData storable 124) start rfl part some'

/-- Starts of lines, one right behind the other. -/
inductive Scraps : List Char → Prop
  | nil : Scraps []
  | cons {entry : ArchiveEntry} {front rest : List Char} (storable : entry.Storable)
    (part : front <+: entry.line.toList) (some' : front ≠ []) (behind : Scraps rest) :
    Scraps (front ++ rest)

namespace Scraps

theorem single (storable : entry.Storable) (part : front <+: entry.line.toList)
    (some' : front ≠ []) : Scraps front := by
  have one := cons storable part some' nil
  rwa [List.append_nil] at one

theorem append (scraps : Scraps text) (storable : entry.Storable)
    (part : front <+: entry.line.toList) (some' : front ≠ []) : Scraps (text ++ front) := by
  induction scraps with
  | nil => exact single storable part some'
  | cons first firstPart firstSome behind ih =>
    rw [List.append_assoc]
    exact cons first firstPart firstSome ih

theorem alien (scraps : Scraps text) : Alien text := by
  induction scraps with
  | nil => exact Alien.nil
  | cons storable part some' behind ih => exact alien_append storable part some' ih

theorem newline_not_mem (scraps : Scraps text) : '\n' ∉ text := by
  induction scraps with
  | nil => exact List.not_mem_nil
  | cons storable part some' behind ih =>
    intro member
    rcases List.mem_append.mp member with inFront | inRest
    · exact newline_not_mem_line storable (part.mem inFront)
    · exact ih inRest

end Scraps

/-- A line that has been cut off and gone on with, and so is no entry: something of it is missing, or
something else stands behind it. -/
inductive Spoilt : List Char → Prop
  | cut {entry : ArchiveEntry} {front rest : List Char} (storable : entry.Storable)
    (cut : Cut front entry.line.toList) (some' : front ≠ []) (behind : Scraps rest) :
    Spoilt (front ++ rest)
  | glued {entry : ArchiveEntry} {rest : List Char} (storable : entry.Storable)
    (behind : Scraps rest) (some' : rest ≠ []) : Spoilt (entry.line.toList ++ rest)

namespace Spoilt

theorem append (spoilt : Spoilt text) (storable : entry.Storable)
    (part : front <+: entry.line.toList) (some' : front ≠ []) : Spoilt (text ++ front) := by
  cases spoilt with
  | cut first firstCut firstSome behind =>
    rw [List.append_assoc]
    exact cut first firstCut firstSome (behind.append storable part some')
  | glued first behind firstSome =>
    rw [List.append_assoc]
    refine glued first (behind.append storable part some') fun empty => ?_
    exact some' (List.append_eq_nil_iff.mp empty).2

theorem newline_not_mem (spoilt : Spoilt text) : '\n' ∉ text := by
  cases spoilt with
  | @cut _ front _ storable cut some' behind =>
    obtain ⟨missing, _, whole⟩ := cut
    exact (Scraps.cons storable ⟨missing, whole⟩ some' behind).newline_not_mem
  | glued storable behind some' =>
    refine (Scraps.cons storable List.prefix_rfl (fun empty => ?_) behind).newline_not_mem
    obtain ⟨more, start⟩ := exists_line_eq _
    rw [start] at empty
    cases empty

theorem isForeign (spoilt : Spoilt text) : IsForeign text := by
  have unread : Json.read (String.ofList text) = none := by
    refine Option.eq_none_iff_forall_ne_some.mpr fun value found => ?_
    obtain ⟨left, read, gap⟩ := Json.exists_of_read found
    rw [String.toList_ofList] at read
    cases spoilt with
    | cut storable cut some' behind =>
      rw [line_toList] at cut
      rw [behind.alien.readValue_cut (carried_toData storable 124) cut some'] at read
      cases read
    | glued storable behind some' =>
      rw [line_toList] at read
      obtain ⟨_, rfl⟩ :=
        Json.eq_of_readValue_text (carried_toData storable 124) (behind.alien.stops rfl) read
      rcases behind.alien.start with rfl | ⟨more, rfl⟩
      · exact some' rfl
      · cases gap
  exact Or.inr (by rw [ofLine?, unread]; rfl)

end Spoilt

end SnippetAudit.ArchiveEntry
