import SnippetAudit.Proofs.Analysis.Aloud

/-!
Listeners and what they do to an analysis. A listener that fails at one of the events ends the
analysis there, and one that does not leaves no trace in the report.
-/

namespace SnippetAudit

variable {m : Type → Type} [Monad m] [LawfulMonad m] {listener : Listener} {events : List Event}

namespace Listener

/-- The first failure of a listener at events that are counted from a number on. -/
def failure? (listener : Listener) : Nat → List Event → Option Breakdown
  | _, [] => none
  | index, event :: events =>
    match listener index event with
    | some breakdown => some breakdown
    | none => failure? listener (index + 1) events

/-- The events before the first at which a listener fails. -/
def heard (listener : Listener) : Nat → List Event → List Event
  | _, [] => []
  | index, event :: events =>
    match listener index event with
    | some _ => []
    | none => event :: heard listener (index + 1) events

theorem heard_of_failure?_eq_none {index : Nat} (never : listener.failure? index events = none) :
    listener.heard index events = events := by
  induction events generalizing index with
  | nil => rfl
  | cons event events ih =>
    rw [failure?] at never
    rw [heard]
    split at never
    · cases never
    · rw [ih never]

theorem failure?_quiet (index : Nat) (events : List Event) : quiet.failure? index events = none := by
  induction events generalizing index with
  | nil => rfl
  | cons event events ih => exact ih (index + 1)

/-- A listener that fails at one number fails if and only if there is an event of that number. -/
theorem failure?_failingAt (failing : Nat) (breakdown : Breakdown) (events : List Event)
    (index : Nat) :
    (failingAt failing breakdown).failure? index events =
      if index ≤ failing ∧ failing < index + events.length then some breakdown else none := by
  induction events generalizing index with
  | nil =>
    rw [failure?, List.length_nil, if_neg]
    omega
  | cons event events ih =>
    rw [failure?, failingAt, List.length_cons]
    by_cases here : index = failing
    · have within : index ≤ failing ∧ failing < index + (events.length + 1) := by omega
      rw [if_pos here, if_pos within]
    · have later : index + 1 ≤ failing ∧ failing < index + 1 + events.length ↔
          index ≤ failing ∧ failing < index + (events.length + 1) := by omega
      rw [if_neg here]
      refine (ih (index + 1)).trans ?_
      simp only [later]

theorem run_get (index : Nat) :
    (get : ExceptT Breakdown (StateT Nat m) Nat).run.run index = pure (.ok index, index) := by
  change (Except.ok <$> (get : StateT Nat m Nat)).run index = _
  rw [StateT.run_map, StateT.run_get, map_pure]

theorem run_set (count index : Nat) :
    (set count : ExceptT Breakdown (StateT Nat m) PUnit).run.run index = pure (.ok (), count) := by
  change (Except.ok <$> (set count : StateT Nat m PUnit)).run index = _
  rw [StateT.run_map, StateT.run_set, map_pure]

theorem run_hear (listener : Listener) (pass : Event → m Unit) (event : Event) (index : Nat) :
    (listener.hear pass event).run.run index = match listener index event with
      | some breakdown => pure (.error breakdown, index)
      | none => do
        pass event
        return (.ok (), index + 1) := by
  rw [hear, ExceptT.run_bind, StateT.run_bind, run_get, pure_bind]
  dsimp only
  cases listener index event with
  | some breakdown => rfl
  | none =>
    dsimp only
    rw [ExceptT.run_bind, StateT.run_bind, run_set, pure_bind]
    change (Except.ok <$> (StateT.lift (pass event) : StateT Nat m PUnit)).run (index + 1) = _
    rw [StateT.run_map, StateT.run_lift]
    simp

/-- Events are passed on up to the first at which the listener fails. -/
theorem run_forM_hear (listener : Listener) (pass : Event → m Unit) (events : List Event)
    (index : Nat) :
    (forM events (listener.hear pass)).run.run index = do
      forM (listener.heard index events) pass
      return (match listener.failure? index events with
        | some breakdown => .error breakdown
        | none => .ok (), index + (listener.heard index events).length) := by
  induction events generalizing index with
  | nil => simp [failure?, heard]
  | cons event events ih =>
    rw [List.forM_cons, ExceptT.run_bind, StateT.run_bind, run_hear, failure?, heard]
    cases listener index event with
    | some breakdown => simp
    | none => simp [ih, Nat.add_assoc, Nat.add_comm 1]

end Listener

/-- A snippet that is not refused for its size is examined by passing on the events of its analysis
as far as the listener hears them; then its report is given, unless the listener has failed. -/
theorem examine_eq (settings : Settings) (listener : Listener) (pass : Event → m Unit)
    (text : String) :
    examine settings listener pass text = match sizeRefusal? settings text with
      | some refusal => pure (.error refusal)
      | none => do
        forM (listener.heard 0 (Analysis.of settings text.toList).events) pass
        return match listener.failure? 0 (Analysis.of settings text.toList).events with
          | some breakdown => .error (.failed breakdown.reason)
          | none => .ok (Analysis.of settings text.toList).report := by
  rw [examine]
  cases sizeRefusal? settings text with
  | some refusal => rfl
  | none =>
    dsimp only
    rw [Report.aloud_eq, ← Analysis.of_eq_direct, ExceptT.run_bind, StateT.run'_eq, StateT.run_bind,
      Listener.run_forM_hear]
    cases listener.failure? 0 (Analysis.of settings text.toList).events with
    | some breakdown => simp
    | none => simp

theorem analyze_eq (settings : Settings) (listener : Listener) (text : String) :
    analyze settings listener text = match sizeRefusal? settings text with
      | some refusal => .error refusal
      | none => match listener.failure? 0 (Analysis.of settings text.toList).events with
        | some breakdown => .error (.failed breakdown.reason)
        | none => .ok (Analysis.of settings text.toList) := by
  rw [analyze, examine_eq]
  cases sizeRefusal? settings text with
  | some refusal => rfl
  | none =>
    dsimp only
    rw [StateT.run_bind, Event.run_forM_keep]
    cases fails : listener.failure? 0 (Analysis.of settings text.toList).events with
    | some breakdown => rfl
    | none =>
      rw [Listener.heard_of_failure?_eq_none fails, Array.empty_append]
      rfl

theorem sizeRefusal?_eq_empty_iff {settings : Settings} {text : String} :
    sizeRefusal? settings text = some .empty ↔ text = "" := by
  rw [← String.utf8ByteSize_eq_zero_iff, sizeRefusal?]
  split
  · rename_i empty
    exact iff_of_true rfl empty
  · rename_i some'
    refine iff_of_false (fun refused => ?_) some'
    split at refused <;> cases refused

theorem sizeRefusal?_eq_tooLarge_iff {settings : Settings} {text : String} {size limit : Nat} :
    sizeRefusal? settings text = some (.tooLarge size limit) ↔
      text ≠ "" ∧ settings.limits.maxInputBytes < text.utf8ByteSize ∧
        size = text.utf8ByteSize ∧ limit = settings.limits.maxInputBytes := by
  rw [ne_eq, ← String.utf8ByteSize_eq_zero_iff, sizeRefusal?]
  grind

theorem sizeRefusal?_eq_none_iff {settings : Settings} {text : String} :
    sizeRefusal? settings text = none ↔
      text ≠ "" ∧ text.utf8ByteSize ≤ settings.limits.maxInputBytes := by
  rw [ne_eq, ← String.utf8ByteSize_eq_zero_iff, sizeRefusal?]
  grind

theorem sizeRefusal?_ne_failed {settings : Settings} {text reason : String} :
    sizeRefusal? settings text ≠ some (.failed reason) := by
  rw [sizeRefusal?]
  grind

section Outcome

variable {settings : Settings} {text : String}

theorem analyze_eq_refused_iff {refusal : Refusal} (sized : ∀ reason, refusal ≠ .failed reason) :
    analyze settings listener text = .error refusal ↔ sizeRefusal? settings text = some refusal := by
  rw [analyze_eq]
  cases sizeRefusal? settings text with
  | some other => simp
  | none =>
    cases listener.failure? 0 (Analysis.of settings text.toList).events with
    | some breakdown => simpa using (sized breakdown.reason).symm
    | none => simp

theorem analyze_eq_empty_iff : analyze settings listener text = .error .empty ↔ text = "" :=
  Iff.trans (analyze_eq_refused_iff nofun) sizeRefusal?_eq_empty_iff

theorem analyze_eq_tooLarge_iff {size limit : Nat} :
    analyze settings listener text = .error (.tooLarge size limit) ↔
      text ≠ "" ∧ settings.limits.maxInputBytes < text.utf8ByteSize ∧
        size = text.utf8ByteSize ∧ limit = settings.limits.maxInputBytes :=
  Iff.trans (analyze_eq_refused_iff nofun) sizeRefusal?_eq_tooLarge_iff

theorem analyze_eq_failed_iff {reason : String} :
    analyze settings listener text = .error (.failed reason) ↔
      sizeRefusal? settings text = none ∧ ∃ breakdown,
        listener.failure? 0 (Analysis.of settings text.toList).events = some breakdown ∧
          reason = breakdown.reason := by
  rw [analyze_eq]
  cases refused : sizeRefusal? settings text with
  | some other =>
    have different : other ≠ .failed reason := fun same => sizeRefusal?_ne_failed (same ▸ refused)
    simpa using different
  | none =>
    cases listener.failure? 0 (Analysis.of settings text.toList).events with
    | some breakdown => simp [eq_comm]
    | none => simp

theorem analyze_eq_ok_iff {analysis : Analysis} :
    analyze settings listener text = .ok analysis ↔
      sizeRefusal? settings text = none ∧
        listener.failure? 0 (Analysis.of settings text.toList).events = none ∧
          analysis = Analysis.of settings text.toList := by
  rw [analyze_eq]
  cases sizeRefusal? settings text with
  | some other => simp
  | none =>
    cases listener.failure? 0 (Analysis.of settings text.toList).events with
    | some breakdown => simp
    | none => simp [eq_comm]

end Outcome

theorem Breakdown.reason_eq (breakdown : Breakdown) :
    breakdown.reason = match breakdown with
      | .worded words => words
      | .wordless => "analysis panicked" := by
  cases breakdown <;> rfl

/-- A snippet is refused if and only if it is empty or too large, whoever listens. Any other one comes
to nothing but the reason of a listener that fails at one of the events of its analysis; with one that
would fail only later, it comes to the report that it has when nobody listens. -/
theorem analyze_outcome (settings : Settings) (text : String) :
    (∀ listener, analyze settings listener text = .error .empty ↔ text = "") ∧
    (∀ listener size limit, analyze settings listener text = .error (.tooLarge size limit) ↔
      text ≠ "" ∧ settings.limits.maxInputBytes < text.utf8ByteSize ∧
        size = text.utf8ByteSize ∧ limit = settings.limits.maxInputBytes) ∧
    (∀ index breakdown reason,
      analyze settings (.failingAt index breakdown) text = .error (.failed reason) ↔
        text ≠ "" ∧ text.utf8ByteSize ≤ settings.limits.maxInputBytes ∧
          index < (Analysis.of settings text.toList).events.length ∧
          reason = match breakdown with
            | .worded words => words
            | .wordless => "analysis panicked") ∧
    (∀ index breakdown analysis,
      analyze settings (.failingAt index breakdown) text = .ok analysis ↔
        text ≠ "" ∧ text.utf8ByteSize ≤ settings.limits.maxInputBytes ∧
          (Analysis.of settings text.toList).events.length ≤ index ∧
          analysis.report = Report.silent settings text.toList ∧
          analysis.events = (Analysis.of settings text.toList).events) := by
  refine ⟨fun listener => analyze_eq_empty_iff,
    fun listener size limit => analyze_eq_tooLarge_iff, fun index breakdown reason => ?_,
    fun index breakdown analysis => ?_⟩
  · rw [analyze_eq_failed_iff, sizeRefusal?_eq_none_iff, Listener.failure?_failingAt,
      ← Breakdown.reason_eq]
    by_cases within : index < (Analysis.of settings text.toList).events.length
    · simp [within, and_assoc]
    · simp [within]
  · rw [analyze_eq_ok_iff, sizeRefusal?_eq_none_iff, Listener.failure?_failingAt, Report.silent_eq,
      Analysis.ext_iff]
    by_cases beyond : (Analysis.of settings text.toList).events.length ≤ index
    · simp [beyond, and_assoc]
    · simp [beyond]

end SnippetAudit
