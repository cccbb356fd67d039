import SnippetAudit.Command.Attempt

/-!
Commands on a host with a state: one request after the other, each on the state that the one before it
has left, until one of them fails. On a recorded host the state is its surroundings.
-/

namespace SnippetAudit

variable {σ α β : Type}

namespace Attempt

theorem run_bind (part : Attempt (StateM σ) α)
    (next : α → Attempt (StateM σ) β) (s : σ) :
    (part >>= next).run s = match part.run s with
      | (.ok value, between) => (next value).run between
      | (.error failure, between) => (.error failure, between) := by
  change (ExceptT.bindCont next (part.run s).1) (part.run s).2 = _
  cases part.run s with
  | mk result between => cases result <;> rfl

theorem run_ask (request : StateM σ (Except Fault α)) (cause : Fault → Cause)
    (s : σ) :
    (ask request cause).run s = match request.run s with
      | (.ok value, between) => (.ok value, between)
      | (.error fault, between) => (.error (.of (cause fault)), between) := by
  rw [ask, ExceptT.run_mk]
  refine (StateT.run_bind _ _ _).trans ?_
  cases request.run s with
  | mk result between => cases result <;> rfl

theorem run_within (context : String) (part : Attempt (StateM σ) α) (s : σ) :
    (within context part).run s = match part.run s with
      | (.ok value, between) => (.ok value, between)
      | (.error failure, between) => (.error (failure.about context), between) := by
  rw [within, ExceptT.run_mk]
  refine (StateT.run_bind _ _ _).trans ?_
  dsimp only [StateT.run]
  cases part.run s with
  | mk result between => cases result <;> rfl

theorem run_sure (request : StateM σ α) (s : σ) :
    (sure request).run s = (.ok (request.run s).1, (request.run s).2) := rfl

section Success

variable {s later : σ} {value : α}

/-- A command of two parts goes through if and only if both do. -/
theorem run_bind_eq_ok_iff {part : Attempt (StateM σ) α}
    {next : α → Attempt (StateM σ) β} {last : β} :
    (part >>= next).run s = (.ok last, later) ↔
      ∃ value between, part.run s = (.ok value, between) ∧
        (next value).run between = (.ok last, later) := by
  rw [run_bind]
  cases part.run s with
  | mk result between =>
    cases result with
    | error failure => exact ⟨nofun, fun ⟨_, _, first, _⟩ => nomatch first⟩
    | ok value =>
      refine ⟨fun rest => ⟨value, between, rfl, rest⟩, ?_⟩
      rintro ⟨_, _, ⟨⟩, rest⟩
      exact rest

theorem run_ask_eq_ok_iff {request : StateM σ (Except Fault α)}
    {cause : Fault → Cause} :
    (ask request cause).run s = (.ok value, later) ↔ request.run s = (.ok value, later) := by
  rw [run_ask]
  cases request.run s with
  | mk result between =>
    cases result with
    | error fault => exact ⟨nofun, nofun⟩
    | ok first => constructor <;> rintro ⟨⟩ <;> rfl

theorem run_within_eq_ok_iff {context : String} {part : Attempt (StateM σ) α} :
    (within context part).run s = (.ok value, later) ↔ part.run s = (.ok value, later) := by
  rw [run_within]
  cases part.run s with
  | mk result between =>
    cases result with
    | error failure => exact ⟨nofun, nofun⟩
    | ok first => exact ⟨id, id⟩

end Success

end Attempt

namespace Host

theorem run_bind_of_run {request : StateM σ α} {next : α → StateM σ β} {s between : σ} {value : α}
    (ran : request.run s = (value, between)) :
    (request >>= next).run s = (next value).run between := by
  rw [StateT.run_bind, ran]
  rfl

/-- The text that bytes stand for, where they could be read. -/
def decoded : Except Fault ByteArray → Except Fault String
  | .error fault => .error fault
  | .ok bytes => match String.fromUTF8? bytes with
    | some text => .ok text
    | none => .error .noText

theorem decoded_eq_ok_iff {result : Except Fault ByteArray} {text : String} :
    decoded result = .ok text ↔
      ∃ bytes, result = .ok bytes ∧ String.fromUTF8? bytes = some text := by
  cases result with
  | error fault => exact ⟨nofun, fun ⟨_, read, _⟩ => nomatch read⟩
  | ok bytes =>
    rw [decoded]
    cases decodes : String.fromUTF8? bytes <;> simp [decodes]

theorem run_readText [Host (StateM σ)] {path : Path} {s later : σ}
    {result : Except Fault ByteArray}
    (ran : (Host.read path : StateM σ (Except Fault ByteArray)).run s = (result, later)) :
    (Host.readText path : StateM σ (Except Fault String)).run s = (decoded result, later) := by
  rw [readText, run_bind_of_run ran]
  cases result with
  | error fault => rfl
  | ok bytes =>
    rw [decoded]
    dsimp only
    cases String.fromUTF8? bytes <;> rfl

end Host

namespace Surroundings

theorem run_create (path : Path) (s : Surroundings) :
    (Host.create path : StateM Surroundings (Except Fault Unit)).run s =
      match s.disk.create s.folder path with
      | .error fault => (.error fault, s)
      | .ok disk => (.ok (), { s with disk }) := by
  rfl

theorem run_touch (path : Path) (s : Surroundings) :
    (Host.touch path : StateM Surroundings (Except Fault Unit)).run s =
      match s.disk.touch s.folder path with
      | .error fault => (.error fault, s)
      | .ok disk => (.ok (), { s with disk }) := by
  rfl

theorem run_append (path : Path) (bytes : ByteArray) (s : Surroundings) :
    (Host.append path bytes : StateM Surroundings (Except Fault Unit)).run s =
      (match (s.disk.append s.folder path bytes).2 with
        | some fault => .error fault
        | none => .ok (), { s with disk := (s.disk.append s.folder path bytes).1 }) := by
  rfl

/-- A notice changes nothing but the notices that have been shown. -/
theorem exists_notices (notice : Notice) (s : Surroundings) :
    ∃ notices, (Host.note notice : StateM Surroundings Unit).run s = ((), { s with notices }) := by
  have ran : (Host.note notice : StateM Surroundings Unit).run s =
      ((), if s.filter.shows notice then { s with notices := s.notices.push notice } else s) := rfl
  rw [ran]
  split
  · exact ⟨_, rfl⟩
  · exact ⟨s.notices, rfl⟩

theorem exists_notices_before (notice : Notice) (value : α) (s : Surroundings) :
    ∃ notices, (do Host.note notice; return value : StateM Surroundings α).run s =
      (value, { s with notices }) := by
  obtain ⟨notices, noted⟩ := exists_notices notice s
  refine ⟨notices, ?_⟩
  rw [StateT.run_bind, noted]
  rfl

theorem exists_notices_forM (notice : α → Notice) (values : List α) (s : Surroundings) :
    ∃ notices, (forM values fun value => Host.note (notice value) :
      StateM Surroundings PUnit).run s = ((), { s with notices }) := by
  induction values generalizing s with
  | nil => exact ⟨s.notices, rfl⟩
  | cons value values ih =>
    obtain ⟨notices, noted⟩ := exists_notices (notice value) s
    obtain ⟨more, rest⟩ := ih { s with notices }
    refine ⟨more, ?_⟩
    rw [List.forM_cons, StateT.run_bind, noted]
    exact rest

end Surroundings

end SnippetAudit
