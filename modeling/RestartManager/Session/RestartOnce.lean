import RestartManager.Session.Ledger

/-! How often a session is restarted. The drop that follows a panic of a
restart callback restarts once more, and nothing else does. -/
namespace RestartManager

open Interaction Program

variable [Platform]

/-- At most one entry of the history is a call of this kind. -/
def IssuesOnce (P : Call → Prop) (history : List Entry) : Prop :=
  ∀ first e second, history = first ++ e :: second → e.Issues P → ∀ e' ∈ second, ¬e'.Issues P

/-- `RmRestart` is issued at most once. -/
def RestartedOnce (history : List Entry) : Prop := IssuesOnce Call.IsRestart history

section

variable {α : Type} {P : Call → Prop} {f : Entry → Option α} {history : List Entry}

/-- Calls that are recorded are issued once if at most one is recorded. -/
theorem issuesOnce_iff (hf : ∀ e, f e = none ↔ ¬e.Issues P) :
    IssuesOnce P history ↔ (history.filterMap f).length ≤ 1 := by
  have hNil {history : List Entry} : history.filterMap f = [] ↔ ∀ e ∈ history, ¬e.Issues P := by
    rw [List.filterMap_eq_nil_iff]
    exact forall₂_congr fun e _ => hf e
  constructor
  · intro h
    induction history with
    | nil => exact Nat.zero_le 1
    | cons e history ih =>
        cases hRecord : f e with
        | none =>
            have hTail : IssuesOnce P history := fun first e' second hSplit =>
              h (e :: first) e' second (congrArg (e :: ·) hSplit)
            rw [List.filterMap_cons_none hRecord]
            exact ih hTail
        | some record =>
            have hIssues : e.Issues P := by
              by_contra hNot
              rw [(hf e).mpr hNot] at hRecord
              cases hRecord
            rw [List.filterMap_cons_some hRecord, hNil.mpr (h [] e history rfl hIssues)]
            exact Nat.le_refl 1
  · rintro h first e second rfl hIssues
    apply hNil.mp
    cases hRecord : f e with
    | none => exact absurd hIssues ((hf e).mp hRecord)
    | some record =>
        rw [List.filterMap_append, List.filterMap_cons_some hRecord, List.length_append,
          List.length_cons] at h
        exact List.length_eq_zero_iff.mp (by omega)

theorem shutdown?_eq_none (e : Entry) : e.shutdown? = none ↔ ¬e.Issues Call.IsShutdown := by
  cases e with
  | op op => exact ⟨fun _ => id, fun _ => rfl⟩
  | call event =>
      obtain ⟨c, response⟩ := event
      cases c <;> first
        | exact ⟨fun _ => id, fun _ => rfl⟩
        | exact ⟨fun h => absurd h (Option.some_ne_none _), fun h => absurd trivial h⟩

theorem restart?_eq_none (e : Entry) : e.restart? = none ↔ ¬e.Issues Call.IsRestart := by
  cases e with
  | op op => exact ⟨fun _ => id, fun _ => rfl⟩
  | call event =>
      obtain ⟨c, response⟩ := event
      cases c <;> first
        | exact ⟨fun _ => id, fun _ => rfl⟩
        | exact ⟨fun h => absurd h (Option.some_ne_none _), fun h => absurd trivial h⟩

theorem restartedOnce_iff : RestartedOnce history ↔ (restarts history).length ≤ 1 :=
  issuesOnce_iff restart?_eq_none

end

/-- A complete life restarts twice exactly if a restart callback panicked. -/
theorem Life.restartedOnce_iff {history : List Entry} {value : Value} (life : Life history value) :
    RestartedOnce history ↔ ¬RestartPanics history := by
  rw [RestartManager.restartedOnce_iff]
  cases life.told with
  | unshut unarmed shutdown restart left calm => simp [restart, calm]
  | armed pending shutdown restart left calm => simp [restart, calm]
  | restarted shutdown restart left calm => simp [restart, calm]
  | left shutdown restart left calm => simp [restart, calm]
  | gone once calm => simp [once, calm]
  | unwound twice panics => simp [twice, panics]

/-! ### Interrupted histories -/

/-- No callback panics, from here on. -/
theorem exists_quiet : ∃ answer : (c : Call) → c.Response, ∀ trace : Trace,
    (∀ event ∈ trace, event.2 = answer event.1) →
      ∀ progress payload, panicked progress payload ∉ trace := by
  refine ⟨fun c => match c with
    | .invokeCallback progress => none
    | c => Classical.choice c.answered, ?_⟩
  intro trace hTrace progress payload hMem
  exact Option.some_ne_none _ (hTrace _ hMem)

/-- An observed history is the beginning of a life in which no more callbacks panic. -/
theorem Observed.completed {history : List Entry} (h : Observed history) :
    ∃ (rest : Trace) (value : Value), Life (history ++ rest.map .call) value ∧
      (RestartPanics (history ++ rest.map .call) → RestartPanics history) := by
  obtain ⟨answer, hQuiet⟩ := exists_quiet
  cases h with
  | @starting trace p run =>
      obtain ⟨rest, result, hRest, -⟩ := exists_exec_answered answer p
      have hRun := run.trans hRest
      have hCalm := (records_new hRun).2.2.2
      have hLife : ∃ value, Life ((trace ++ rest).map .call) value := by
        cases result with
        | ok session => exact ⟨_, .started hRun⟩
        | error error => exact ⟨_, .failed hRun⟩
      rw [List.map_append] at hLife hCalm
      obtain ⟨value, life⟩ := hLife
      exact ⟨_, value, life, fun hPanics => absurd hPanics hCalm⟩
  | idle life =>
      rename_i value
      refine ⟨[], value, ?_, ?_⟩
      · rwa [List.map_nil, List.append_nil]
      · rw [List.map_nil, List.append_nil]
        exact id
  | @performing history value op p q trace life method run =>
      obtain ⟨rest, ⟨value', output⟩, hRest, hAnswers⟩ := exists_exec_answered answer q
      have hLife := life.perform method (run.trans hRest)
      have hSplit : history ++ .op op :: (trace ++ rest).map .call =
          (history ++ .op op :: trace.map .call) ++ rest.map .call := by simp
      rw [hSplit] at hLife
      refine ⟨_, value', hLife, ?_⟩
      rw [← hSplit, restartPanics_perform, restartPanics_perform]
      rintro (hPanics | ⟨hOp, progress, payload, hMem⟩)
      · exact .inl hPanics
      · rcases List.mem_append.mp hMem with hMem | hMem
        · exact .inr ⟨hOp, progress, payload, hMem⟩
        · exact absurd hMem (hQuiet rest hAnswers progress payload)

theorem Observed.restartedOnce {history : List Entry} (h : Observed history)
    (hCalm : ¬RestartPanics history) : RestartedOnce history := by
  obtain ⟨rest, value, life, hPanics⟩ := h.completed
  have hOnce := RestartManager.restartedOnce_iff.mp
    (life.restartedOnce_iff.mpr fun h => hCalm (hPanics h))
  apply RestartManager.restartedOnce_iff.mpr
  rw [restarts, List.filterMap_append, List.length_append] at hOnce
  exact (Nat.le_add_right _ _).trans hOnce

/-- Only a caller's own callback panics. -/
theorem Performed.panics_user {value value' : Value} {callback : Callback} {trace : Trace}
    {output : Output} {progress : Progress} {payload : Payload}
    (performed : Performed value (.restartWithProgress callback) trace value' output)
    (hMem : panicked progress payload ∈ trace) : callback = .user := by
  generalize hOp : Op.restartWithProgress callback = op at performed
  cases performed with
  | borrowed stays calls returned =>
      have hBefore := calls _ hMem
      simp [panicked, Call.BeforeShutdown, Call.Registers, Call.Reports, Call.ChangesFilter,
        Call.ListsFilters] at hBefore
  | shutdown plain => rcases plain with rfl | ⟨rfl, -⟩ <;> cases hOp
  | restartWithProgress run =>
      cases hOp
      cases run with
      | refused => cases List.mem_singleton.mp hMem
      | completed => exact absurd hMem (not_panicked_completed (by intro h; cases h))
      | panicked reached user dropped => exact user
  | _ => cases hOp

theorem Life.panics_user {history : List Entry} {value : Value} (life : Life history value)
    (h : RestartPanics history) : .op (.restartWithProgress .user) ∈ history := by
  induction life with
  | started run => exact absurd h (records_new run).2.2.2
  | failed run => exact absurd h (records_new run).2.2.2
  | perform life method run ih =>
      rcases restartPanics_perform.mp h with h | ⟨⟨callback, rfl⟩, progress, payload, hMem⟩
      · exact List.mem_append_left _ (ih h)
      · obtain rfl := (performed_of_exec life.fits.2 method run).panics_user hMem
        simp

theorem Observed.panics_user {history : List Entry} (h : Observed history)
    (hPanics : RestartPanics history) : .op (.restartWithProgress .user) ∈ history := by
  obtain ⟨rest, value, life, -⟩ := h.completed
  have hLater : RestartPanics (history ++ rest.map .call) := by
    obtain ⟨first, second, callback, progress, payload, rfl, hLast⟩ := hPanics
    exact ⟨first, second ++ rest.map .call, callback, progress, payload, by simp, hLast⟩
  simpa using life.panics_user hLater

end RestartManager
