import SnippetAudit.Proofs.Analysis.Aloud
import SnippetAudit.Proofs.Fixture

/-!
The events of an analysis and the report it comes to. Every issue, every span that calls itself and
both classes of growth have their events, in this order, and there are no others.
-/

namespace SnippetAudit

variable {text : List Char}

namespace Event

/-- What an event labels, and with which class of growth. -/
def label? : Event → Option (Dimension × Growth)
  | issue _ _ _ => none
  | recursion _ => none
  | pinned dimension _ growth => some (dimension, growth)
  | judged dimension _ growth => some (dimension, growth)

/-- The class of growth was decided by a fixture, and by no rule. -/
def IsPinned : Event → Prop
  | pinned _ _ _ => True
  | _ => False

end Event

namespace Classify

theorem label?_time (text : List Char) (recursive : Bool) :
    (time text recursive).2.label? = some (.time, (time text recursive).1) := by
  unfold time
  split <;> rfl

theorem label?_space (text : List Char) (recursive : Bool) :
    (space text recursive).2.label? = some (.space, (space text recursive).1) := by
  unfold space
  split <;> rfl

theorem isPinned_iff (text : List Char) (recursive : Bool) :
    ((time text recursive).2.IsPinned ↔ (Fixture.find? text).isSome) ∧
      ((space text recursive).2.IsPinned ↔ (Fixture.find? text).isSome) := by
  cases found : Fixture.find? text with
  | some fixture =>
    obtain ⟨time, space⟩ := of_find? found recursive
    rw [time, space]
    exact ⟨iff_of_true trivial rfl, iff_of_true trivial rfl⟩
  | none =>
    simp only [time, space, found, Event.IsPinned, Option.isSome_none, Bool.false_eq_true, iff_self,
      and_self]

/-- If the time of a text is pinned, then so is its space, by the same fixture and whether or not
anything in the text is recursive. -/
theorem exists_fixture {recursive : Bool} (pinned : (time text recursive).2.IsPinned) :
    ∃ fixture ∈ Fixture.table, fixture.accepts text = true ∧ ∀ other,
      time text other = (fixture.time, .pinned .time fixture.name fixture.time) ∧
        space text other = (fixture.space, .pinned .space fixture.name fixture.space) := by
  obtain ⟨fixture, found⟩ := Option.isSome_iff_exists.mp ((isPinned_iff text recursive).1.mp pinned)
  exact ⟨fixture, List.mem_of_find?_eq_some found, Fixture.accepts_of_find? found, of_find? found⟩

end Classify

/-- The events of an analysis are one for each issue of the report, one for each span that calls
itself, and one each for time and space, labelled as in the report. Time is pinned if and only if
space is, and then one fixture has decided both. -/
theorem events_explain_report (settings : Settings) (text : List Char) :
    ∃ time space : Event,
      (Analysis.of settings text).events =
        (Analysis.of settings text).report.issues.map
            (fun issue => .issue issue.rule issue.severity issue.line) ++
          ((Span.extract text).filter Span.callsItself).map (fun span => .recursion span.name) ++
            [time, space] ∧
      time.label? = some (.time, (Analysis.of settings text).report.metrics.time) ∧
      space.label? = some (.space, (Analysis.of settings text).report.metrics.space) ∧
      (time.IsPinned ↔ space.IsPinned) ∧
      (time.IsPinned ↔ ∃ fixture ∈ Fixture.table, fixture.accepts text = true ∧
        time = .pinned .time fixture.name fixture.time ∧
        space = .pinned .space fixture.name fixture.space ∧
        ∀ recursive, Classify.time text recursive = (fixture.time, time) ∧
          Classify.space text recursive = (fixture.space, space)) := by
  let recursive := (Span.extract text).any Span.callsItself
  rw [Analysis.of_eq_direct]
  refine ⟨(Classify.time text recursive).2, (Classify.space text recursive).2,
    (List.append_assoc _ _ _).symm, Classify.label?_time text recursive,
    Classify.label?_space text recursive, ?_, ?_, ?_⟩
  · rw [(Classify.isPinned_iff text recursive).1, (Classify.isPinned_iff text recursive).2]
  · intro pinned
    obtain ⟨fixture, listed, accepted, both⟩ := Classify.exists_fixture pinned
    obtain ⟨time, space⟩ := both recursive
    rw [time, space]
    exact ⟨fixture, listed, accepted, rfl, rfl, both⟩
  · rintro ⟨fixture, _, _, pinned, _⟩
    rw [pinned]
    trivial

end SnippetAudit
