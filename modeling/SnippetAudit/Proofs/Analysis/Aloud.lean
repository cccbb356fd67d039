import SnippetAudit.Analysis

/-!
What telling has to do with an analysis. Whoever is told, and whatever comes of it, an analysis tells
the same events in the same order and gives the same report in the end; and these events say how the
report came about.
-/

namespace SnippetAudit

section Aloud

variable {m : Type → Type} [Monad m] [LawfulMonad m] (tell : Event → m Unit)

theorem Issue.detectAloud_eq (text : List Char) (metrics : LineMetrics) (decisions : Nat)
    (thresholds : Thresholds) :
    detectAloud tell text metrics decisions thresholds = do
      forM ((detect text metrics decisions thresholds).map event) tell
      return detect text metrics decisions thresholds := by
  rw [detectAloud, List.forM_eq_forM, List.forM_map]

/-- The answer of the search for recursion is yes as soon as a span is told of, so what it was before
matters only where there is none. -/
theorem Span.foldlM_recursion (spans : List Span) (found : Bool) :
    (spans.foldlM (fun _ span => do
      tell (.recursion span.name)
      return true) found : m Bool) = do
      forM (spans.map fun span => .recursion span.name) tell
      return found || !spans.isEmpty := by
  induction spans generalizing found with
  | nil => simp
  | cons span spans ih =>
    rw [List.foldlM_cons, List.map_cons, List.forM_cons]
    simp only [bind_assoc, pure_bind, ih, Bool.true_or, List.isEmpty_cons, Bool.not_false,
      Bool.or_true]

theorem Span.any_callsItself (spans : List Span) :
    spans.any callsItself = !(recursive spans).isEmpty := by
  rw [recursive, Bool.eq_iff_iff]
  simp

theorem Span.recursiveAloud_eq (spans : List Span) :
    recursiveAloud tell spans = do
      forM (recursionEvents spans) tell
      return spans.any callsItself := by
  rw [recursiveAloud, foldlM_recursion, recursionEvents, any_callsItself]
  rfl

/-- An analysis without anybody being told: its report, and the events that there are to tell. -/
def Analysis.direct (settings : Settings) (text : List Char) : Analysis :=
  let metrics := LineMetrics.ofText text
  let decisions := decisionCount text
  let issues := Issue.detect text metrics decisions settings.thresholds
  let spans := Span.extract text
  let time := Classify.time text (spans.any Span.callsItself)
  let space := Classify.space text (spans.any Span.callsItself)
  let score := Score.aggregate metrics decisions issues settings.weights
  { report :=
      { score := score.score
        status := score.status
        metrics :=
          { codeLines := metrics.code, share := metrics.share, decisions
            readability := score.readability, maintainability := score.maintainability
            time := time.1, space := space.1 }
        issues }
    events := issues.map Issue.event ++ (Span.recursionEvents spans ++ [time.2, space.2]) }

/-- An analysis comes to the same whoever is told: first all its events are told in order, and then
its report is given. -/
theorem Report.aloud_eq (settings : Settings) (text : List Char) :
    Report.aloud tell settings text = do
      forM (Analysis.direct settings text).events tell
      return (Analysis.direct settings text).report := by
  simp only [Report.aloud, Issue.detectAloud_eq, Span.recursiveAloud_eq, Classify.aloud,
    Analysis.direct, List.forM_append, List.forM_cons, List.forM_nil, bind_assoc, pure_bind]

end Aloud

theorem Event.run_forM_keep (events : List Event) (kept : Array Event) :
    (forM events Event.keep : StateM (Array Event) PUnit).run kept = ((), kept ++ events.toArray) := by
  induction events generalizing kept with
  | nil => exact congrArg (Prod.mk ()) Array.append_empty.symm
  | cons event events ih =>
    rw [List.forM_cons, StateT.run_bind]
    refine (ih (kept.push event)).trans ?_
    simp

theorem Analysis.of_eq_direct (settings : Settings) (text : List Char) :
    of settings text = direct settings text := by
  rw [of, Report.aloud_eq, StateT.run_bind, Event.run_forM_keep, Array.empty_append]
  rfl

theorem Report.silent_eq (settings : Settings) (text : List Char) :
    silent settings text = (Analysis.of settings text).report := by
  rw [silent, Report.aloud_eq, Analysis.of_eq_direct]
  simp

theorem Report.silent_issues (settings : Settings) (text : List Char) :
    (silent settings text).issues =
      Issue.detect text (.ofText text) (decisionCount text) settings.thresholds := by
  rw [silent_eq, Analysis.of_eq_direct]
  rfl

theorem Report.silent_score (settings : Settings) (text : List Char) :
    (silent settings text).score =
      Score.points (silent settings text).issues settings.weights := by
  rw [silent_eq, Analysis.of_eq_direct]
  rfl

end SnippetAudit
