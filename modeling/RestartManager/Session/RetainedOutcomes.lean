import RestartManager.Session.RestartOnce

/-! The outcomes that a session shows. Each of them is the outcome of the one
native call that it is about, however often and wherever it is shown. -/
namespace RestartManager

open Interaction Program

/-- The outcome tells what the native call returned, and whether its progress
was well formed. -/
inductive OperationOutcome.Truthful (reply : OperationReply) (trampoline : Bool) :
    OperationOutcome → Prop
  | succeeded (code : reply.code = ERROR_SUCCESS) (proper : trampoline = true → Increasing reply.reports) :
      Truthful reply trampoline .succeeded
  | failed {error : Error} (code : reply.code ≠ ERROR_SUCCESS)
      (raw : error.rawOsError = some reply.code) : Truthful reply trampoline (.failed error)
  | malformed {error : Error} (code : reply.code = ERROR_SUCCESS) (reported : trampoline = true)
      (improper : ¬Increasing reply.reports) (kind : error.kind = .malformedOsData)
      (raw : error.rawOsError = none) : Truthful reply trampoline (.failed error)

/-- The public error keeps each native code. -/
theorem mapSysError_raw (code : UInt32) : (mapSysError (.os code)).rawOsError = some code := by
  unfold mapSysError
  split <;> simp_all [Error.new, SysError.rawOsError]

/-- Under every operation. -/
theorem mapOperationError_raw (code : UInt32) (operation : Operation) :
    (mapOperationError (.os code) operation).rawOsError = some code := by
  unfold mapOperationError
  split <;> simp_all [Error.new, mapSysError_raw]

/-- An outcome that was made from a reply tells what the reply said. -/
theorem truthful_outcome (reply : OperationReply) (operation : Operation) (trampoline : Bool) :
    (reply.outcome operation trampoline).Truthful reply trampoline := by
  unfold OperationReply.outcome retainedOutcome
  by_cases hCode : reply.code = ERROR_SUCCESS
  · rw [if_neg (not_not.mpr hCode)]
    by_cases hProper : Increasing (if trampoline then reply.reports else [])
    · rw [if_pos hProper]
      refine .succeeded hCode fun hTrampoline => ?_
      rwa [if_pos hTrampoline] at hProper
    · rw [if_neg hProper]
      cases trampoline with
      | true => exact .malformed hCode rfl hProper rfl rfl
      | false => exact absurd ⟨.nil, fun _ h => absurd h List.not_mem_nil⟩ hProper
  · rw [if_pos hCode]
    exact .failed hCode (mapOperationError_raw _ _)

namespace Output

/-- The shutdown outcome that is shown. -/
def shutdown? : Output → Option OperationOutcome
  | .shutdownOutcome shutdown => some shutdown
  | .outcome recovery => some recovery.shutdown
  | .ended (.ok recovery) => some recovery.shutdown
  | _ => none

/-- The outcome of a completed recovery that is shown. -/
def recovery? : Output → Option RecoveryOutcome
  | .outcome recovery => some recovery
  | .ended (.ok recovery) => some recovery
  | _ => none

/-- A recovery is shown with its shutdown. -/
theorem shutdown?_of_recovery? {output : Output} {outcome : RecoveryOutcome}
    (h : output.recovery? = some outcome) : output.shutdown? = some outcome.shutdown := by
  unfold recovery? at h
  split at h <;> cases h <;> rfl

end Output

variable [Platform]

/-- A life, with what its operations returned. -/
inductive Shown : List Entry → Value → List Output → Prop
  | started {trace : Trace} {session : RestartSession}
      (run : RestartSession.new.Exec trace (.ok session)) :
      Shown (trace.map .call) (.session session) []
  | failed {trace : Trace} {error : Error} (run : RestartSession.new.Exec trace (.error error)) :
      Shown (trace.map .call) .gone []
  | perform {history : List Entry} {value value' : Value} {outputs : List Output} {op : Op}
      {output : Output} {p : Native (Value × Output)} {trace : Trace}
      (shown : Shown history value outputs) (method : RestartManager.perform value op = some p)
      (run : p.Exec trace (value', output)) :
      Shown (history ++ .op op :: trace.map .call) value' (outputs ++ [output])

/-- What is shown is shown in a life. -/
theorem Shown.life {history : List Entry} {value : Value} {outputs : List Output}
    (h : Shown history value outputs) : Life history value := by
  induction h with
  | started run => exact .started run
  | failed run => exact .failed run
  | perform shown method run ih => exact ih.perform method run

/-! ### Outcomes and their calls -/

/-- The outcome is true of the only shutdown among these calls. -/
def ShutdownTold (trace : Trace) (outcome : OperationOutcome) : Prop :=
  ∃ first second raw flags trampoline reply,
    trace = first ++ ⟨.rmShutdown raw flags trampoline, reply⟩ :: second ∧
      (∀ event ∈ first ++ second, ¬event.1.IsShutdown) ∧ outcome.Truthful reply trampoline

/-- The outcome is true of the only restart among these calls. -/
def RestartTold (trace : Trace) (outcome : OperationOutcome) : Prop :=
  ∃ first second raw flags trampoline reply,
    trace = first ++ ⟨.rmRestart raw flags trampoline, reply⟩ :: second ∧
      (∀ event ∈ first ++ second, ¬event.1.IsRestart) ∧ outcome.Truthful reply trampoline

/-- The outcomes shown while these calls were made. `left` says whether the
applications were left stopped. -/
structure RetainedOutcomes (trace : Trace) (left : Prop) (shutdowns : List OperationOutcome)
    (recoveries : List RecoveryOutcome) : Prop where
  equal : ∀ outcome ∈ shutdowns, ∀ outcome' ∈ shutdowns, outcome = outcome'
  shutdown : ∀ outcome ∈ shutdowns, ShutdownTold trace outcome
  shows : ∀ outcome ∈ recoveries, outcome.shutdown ∈ shutdowns
  left : ∀ outcome ∈ recoveries, outcome.restart = none ↔ left
  restart : ∀ outcome ∈ recoveries, ∀ restart ∈ outcome.restart, RestartTold trace restart

section

variable {history : List Entry} {trace : Trace} {outcome : OperationOutcome}

/-- The calls of a history. -/
def Entry.event? : Entry → Option Event
  | .call event => some event
  | .op _ => none

def events (history : List Entry) : Trace := history.filterMap Entry.event?

theorem events_calls : events (trace.map .call) = trace := by
  rw [events, List.filterMap_map]
  exact List.filterMap_some

/-- The calls of an operation follow those made before. -/
theorem events_perform {op : Op} :
    events (history ++ .op op :: trace.map .call) = events history ++ trace := by
  rw [events, List.filterMap_append, List.filterMap_cons_none rfl]
  exact congrArg (events history ++ ·) events_calls

/-- A projection that skips operations sees the calls only. -/
theorem filterMap_events {α : Type} {f : Entry → Option α} (hf : ∀ op, f (.op op) = none) :
    ((events history).map .call).filterMap f = history.filterMap f := by
  induction history with
  | nil => rfl
  | cons e history ih =>
      cases e with
      | op operation => rw [List.filterMap_cons_none (hf operation), ← ih]; rfl
      | call event =>
          change (Entry.call event :: (events history).map .call).filterMap f = _
          rw [List.filterMap_cons, List.filterMap_cons, ih]

theorem shutdowns_events : shutdowns ((events history).map .call) = shutdowns history :=
  filterMap_events fun _ => rfl

theorem restarts_events : restarts ((events history).map .call) = restarts history :=
  filterMap_events fun _ => rfl

/-- The only record of a trace is that of its only call of the kind. -/
theorem only_record {f : Entry → Option OperationOutcome} {P : Call → Prop}
    (hf : ∀ e, f e = none ↔ ¬e.Issues P) (h : (trace.map Entry.call).filterMap f = [outcome]) :
    ∃ first event second, trace = first ++ event :: second ∧ f (.call event) = some outcome ∧
      ∀ event ∈ first ++ second, ¬P event.1 := by
  obtain ⟨before, e, after, hSplit, hBefore, hRecord, hAfter⟩ := List.filterMap_eq_cons_iff.mp h
  obtain ⟨first, rest, rfl, rfl, hRest⟩ := List.map_eq_append_iff.mp hSplit
  obtain ⟨event, second, rfl, rfl, rfl⟩ := List.map_eq_cons_iff.mp hRest
  refine ⟨first, event, second, rfl, hRecord, ?_⟩
  intro event' hMem
  apply (hf (.call event')).mp
  rcases List.mem_append.mp hMem with hMem | hMem
  · exact hBefore _ (List.mem_map_of_mem hMem)
  · exact List.filterMap_eq_nil_iff.mp hAfter _ (List.mem_map_of_mem hMem)

/-- The one recorded shutdown is the one that the trace has. -/
theorem shutdownTold (h : shutdowns (trace.map .call) = [outcome]) : ShutdownTold trace outcome := by
  obtain ⟨first, ⟨c, reply⟩, second, rfl, hRecord, hOnly⟩ := only_record shutdown?_eq_none h
  cases c <;> cases hRecord
  exact ⟨first, second, _, _, _, reply, rfl, hOnly, truthful_outcome _ _ _⟩

/-- The one recorded restart is the one that the trace has. -/
theorem restartTold (h : restarts (trace.map .call) = [outcome]) : RestartTold trace outcome := by
  obtain ⟨first, ⟨c, reply⟩, second, rfl, hRecord, hOnly⟩ := only_record restart?_eq_none h
  cases c <;> cases hRecord
  exact ⟨first, second, _, _, _, reply, rfl, hOnly, truthful_outcome _ _ _⟩

end

/-! ### What is retained -/

/-- The retained outcomes are the recorded ones. -/
structure Retained (history : List Entry) (outcome : RecoveryOutcome) : Prop where
  shutdown : shutdowns history = [outcome.shutdown]
  restart : restarts history = outcome.restart.toList
  left : outcome.restart = none ↔ .op .leaveStopped ∈ history

section

variable {history : List Entry} {value value' : Value} {outputs : List Output} {op : Op}
  {trace : Trace} {output : Output}

/-- A completed recovery retains the outcomes of its calls. -/
theorem Told.retained {completion : RecoveryCompletion} (h : Told history (.completion completion)) :
    Retained history completion.outcome := by
  cases h with
  | unshut unarmed => simp at unarmed
  | armed pending => simp at pending
  | restarted shutdown restart left calm => exact ⟨shutdown, restart, by simp [left]⟩
  | left shutdown restart left calm => exact ⟨shutdown, restart, by simp [left]⟩

/-- A pending recovery shows the shutdown that was made. -/
theorem Told.of_pending {pending : RestartPending} {outcome : OperationOutcome}
    (h : Told history (.pending pending)) (hOutcome : pending.shutdownOutcome = .ok outcome) :
    shutdowns history = [outcome] := by
  cases h with
  | unshut unarmed => simp at unarmed
  | armed owned shutdown restart left calm =>
      obtain rfl : pending = ⟨some _, some _⟩ := by simpa using owned
      cases hOutcome
      exact shutdown

/-- An operation that records nothing changes no outcome. -/
theorem Retained.keep {outcome : RecoveryOutcome} (h : Retained history outcome)
    (hNone : Unrecorded op trace) : Retained (history ++ .op op :: trace.map .call) outcome :=
  ⟨hNone.shutdowns_eq.trans h.shutdown, hNone.restarts_eq.trans h.restart,
    h.left.trans hNone.left_iff.symm⟩

/-- A recorded shutdown stays the only one. -/
theorem Life.shutdowns_kept {outcome : OperationOutcome}
    (life : Life (history ++ .op op :: trace.map .call) value')
    (h : shutdowns history = [outcome]) :
    shutdowns (history ++ .op op :: trace.map .call) = [outcome] := by
  have hOnce : (shutdowns (history ++ .op op :: trace.map .call)).length ≤ 1 :=
    (issuesOnce_iff shutdown?_eq_none).mp (RecoveryObligation.of_admits life.fits.1).shutdown_once
  rw [shutdowns_perform, h] at hOnce ⊢
  rw [List.length_append, List.length_singleton] at hOnce
  have hNone : (shutdowns (trace.map .call)).length = 0 := by omega
  rw [List.length_eq_zero_iff.mp hNone, List.append_nil]

/-- What an output shows of the outcomes. -/
structure Output.Shows (history : List Entry) (value : Value) (output : Output) : Prop where
  shutdown : ∀ outcome ∈ output.shutdown?, shutdowns history = [outcome]
  recovery : ∀ outcome ∈ output.recovery?, Retained history outcome ∧
    (value = .gone ∨ ∃ core, value = .completion ⟨core, outcome⟩)

/-- An output without an outcome shows nothing that could be wrong. -/
theorem Output.Shows.silent (h : output.shutdown? = none) (hRecovery : output.recovery? = none) :
    output.Shows history value := by
  constructor
  · rw [h]
    exact fun outcome hMem => absurd hMem (Option.not_mem_none _)
  · rw [hRecovery]
    exact fun outcome hMem => absurd hMem (Option.not_mem_none _)

/-- A completed recovery shows the same outcomes until it is gone. -/
theorem Performed.retained {outcome : RecoveryOutcome}
    (performed : Performed value op trace value' output) (h : Retained history outcome)
    (hValue : value = .gone ∨ ∃ core, value = .completion ⟨core, outcome⟩) :
    Retained (history ++ .op op :: trace.map .call) outcome ∧
      (value' = .gone ∨ ∃ core, value' = .completion ⟨core, outcome⟩) := by
  cases performed with
  | borrowed stays calls returned =>
      exact ⟨h.keep (.of_calls stays fun event hMem => .inl (calls event hMem)), hValue⟩
  | outcome => exact ⟨h.keep (.nil (by intro h; cases h)), hValue⟩
  | ended owned calls => exact ⟨h.keep (calls.unrecorded (by intro h; cases h)), .inl rfl⟩
  | completed calls => exact ⟨h.keep (calls.unrecorded (by intro h; cases h)), .inl rfl⟩
  | dropped owned calls => exact ⟨h.keep (calls.unrecorded (by intro h; cases h)), .inl rfl⟩
  | abandoned owned dropped => rcases owned with rfl | ⟨error, rfl⟩ <;> simp at hValue
  | _ => simp at hValue

/-- What an output showed stays true after any later operation. -/
theorem Output.Shows.keep {earlier : Output} (h : earlier.Shows history value)
    (performed : Performed value op trace value' output)
    (life : Life (history ++ .op op :: trace.map .call) value') :
    earlier.Shows (history ++ .op op :: trace.map .call) value' where
  shutdown outcome hMem := life.shutdowns_kept (h.shutdown outcome hMem)
  recovery outcome hMem := performed.retained (h.recovery outcome hMem).1 (h.recovery outcome hMem).2

/-- What an operation returns shows what is recorded. -/
theorem Told.shows (h : Told history value) (performed : Performed value op trace value' output) :
    output.Shows (history ++ .op op :: trace.map .call) value' := by
  cases performed with
  | borrowed stays calls returned =>
      cases output <;> first | exact .silent rfl rfl | exact returned.elim
  | shutdownOutcome =>
      have hNone : Unrecorded .shutdownOutcome [] := .nil (by intro h; cases h)
      obtain ⟨hShutdown, -⟩ := h.of_armed (.inl rfl)
      constructor
      · intro outcome hMem
        cases hMem
        exact hNone.shutdowns_eq.trans hShutdown
      · exact fun outcome hMem => absurd hMem (Option.not_mem_none _)
  | outcome =>
      have hNone : Unrecorded .outcome [] := .nil (by intro h; cases h)
      have hRetained := h.retained.keep hNone
      constructor
      · intro outcome hMem
        cases hMem
        exact hRetained.shutdown
      · intro outcome hMem
        cases hMem
        exact ⟨hRetained, .inr ⟨_, rfl⟩⟩
  | @completed completion trace result calls =>
      have hNone : Unrecorded .endSession trace := calls.unrecorded (by intro h; cases h)
      have hRetained := h.retained.keep hNone
      cases result with
      | error error => exact .silent rfl rfl
      | ok value =>
          constructor
          · intro outcome hMem
            cases hMem
            exact hRetained.shutdown
          · intro outcome hMem
            cases hMem
            exact ⟨hRetained, .inl rfl⟩
  | @shutdownWithProgress session options callback trace result run =>
      rcases result with payload | (error | pending) <;> exact .silent rfl rfl
  | @restartWithProgress core outcome callback trace result run =>
      rcases result with payload | (error | completion) <;> exact .silent rfl rfl
  | _ => exact .silent rfl rfl

/-- By induction on the life. -/
theorem Shown.shows (h : Shown history value outputs) :
    ∀ output ∈ outputs, output.Shows history value := by
  induction h with
  | started run => exact fun output hMem => absurd hMem List.not_mem_nil
  | failed run => exact fun output hMem => absurd hMem List.not_mem_nil
  | perform shown method run ih =>
      have performed := performed_of_exec shown.life.fits.2 method run
      have life := shown.life.perform method run
      intro output hMem
      rcases List.mem_append.mp hMem with hMem | hMem
      · exact (ih output hMem).keep performed life
      · obtain rfl := List.mem_singleton.mp hMem
        exact shown.life.told.shows performed

/-- Every life shows the outcomes of its own native calls. -/
theorem Shown.outcomes (h : Shown history value outputs) :
    RetainedOutcomes (events history) (.op .leaveStopped ∈ history)
      (outputs.filterMap Output.shutdown?) (outputs.filterMap Output.recovery?) := by
  have hShutdown : ∀ outcome ∈ outputs.filterMap Output.shutdown?, shutdowns history = [outcome] := by
    intro outcome hMem
    obtain ⟨output, hOutput, hShows⟩ := List.mem_filterMap.mp hMem
    exact (h.shows output hOutput).shutdown outcome hShows
  have hRecovery : ∀ outcome ∈ outputs.filterMap Output.recovery?, Retained history outcome := by
    intro outcome hMem
    obtain ⟨output, hOutput, hShows⟩ := List.mem_filterMap.mp hMem
    exact ((h.shows output hOutput).recovery outcome hShows).1
  constructor
  · intro outcome hMem outcome' hMem'
    have hSame := (hShutdown outcome hMem).symm.trans (hShutdown outcome' hMem')
    exact (List.cons.inj hSame).1
  · intro outcome hMem
    exact shutdownTold (shutdowns_events.trans (hShutdown outcome hMem))
  · intro outcome hMem
    obtain ⟨output, hOutput, hShows⟩ := List.mem_filterMap.mp hMem
    exact List.mem_filterMap.mpr ⟨output, hOutput, Output.shutdown?_of_recovery? hShows⟩
  · exact fun outcome hMem => (hRecovery outcome hMem).left
  · intro outcome hMem restart hRestart
    have hRestarts := (hRecovery outcome hMem).restart
    rw [Option.mem_def.mp hRestart] at hRestarts
    exact restartTold (restarts_events.trans hRestarts)

end

end RestartManager
