import RestartManager.Interaction.Simulation
import RestartManager.Session.InSequence
import RestartManager.Session.RecoveryObligation
import RestartManager.Tokio.Facade

/-! Each command against the blocking method it stands for. A handle matches
the typestate of the worker, and a command that its handle sends makes the
native calls of the blocking method and replies what that method returns. -/
namespace RestartManager

open Interaction Contract Program

namespace Tokio

/-- The error that a future yields for its reply. -/
def Reply.error? : Reply → Option Error
  | .done (.error error) => some error
  | .applications (.error error) => some error
  | .filters (.error error) => some error
  | .recovery (.error error) => some error
  | .shutdown (.recoverable error) => some error
  | .shutdown (.failed error) => some error
  | .restart (.recoverable error) => some error
  | .restart (.failed error) => some error
  | _ => none

def Handle.Sends (handle : Handle) (op : Op) (command : Command) : Prop :=
  handle.borrowed op = some command ∨ ∃ future, handle.consumed op = some (command, future)

/-- What the owner of a blocking session would hold in place of the worker. -/
def WorkerState.value : WorkerState → Value
  | .primary session => .session session
  | .joined session => .joined session
  | .pending state => .pending state
  | .completion state => .completion state
  | .empty => .gone

/-- The value after the state is taken out of an `OperationNotStarted`. -/
def retained : Value → Value
  | .shutdownNotStarted error => .session error.state
  | .restartNotStarted error => .pending error.state
  | value => value

/-- The reply tells what the blocking method left and returned. -/
inductive Reply.Carries : Reply → Value → Output → Prop
  | done {value : Value} {result : Except Error Unit} : Carries (.done result) value (.done result)
  | applications {value : Value} {result : Except Error AffectedApplications} :
      Carries (.applications result) value (.applications result)
  | filters {value : Value} {result : Except Error (List Filter)} :
      Carries (.filters result) value (.filters result)
  | ended {result : Except Error RecoveryOutcome} : Carries (.recovery result) .gone (.ended result)
  | pending {pending : RestartPending} {outcome : OperationOutcome}
      (h : pending.shutdownOutcome = .ok outcome) :
      Carries (.shutdown (.pending outcome)) (.pending pending) .state
  | shutdownNotStarted {refused : OperationNotStarted RestartSession} :
      Carries (.shutdown (.recoverable refused.error)) (.shutdownNotStarted refused)
        (.notStarted refused.error)
  | completion {completion : RecoveryCompletion} :
      Carries (.recovery (.ok completion.outcome)) (.completion completion) .state
  | completed {completion : RecoveryCompletion} :
      Carries (.restart (.completed completion.outcome)) (.completion completion) .state
  | restartNotStarted {refused : OperationNotStarted RestartPending} :
      Carries (.restart (.recoverable refused.error)) (.restartNotStarted refused)
        (.notStarted refused.error)

/-- The typestate of the worker is the one that the type of the handle tells,
and retains the outcomes that the handle retains. -/
inductive Handle.Matches : Handle → WorkerState → Prop
  | session {core : SessionCore} (open_ : core.handle.ended = false) :
      Matches (.session core.key core.handle.raw) (.primary ⟨core⟩)
  | joined {core : SessionCore} (open_ : core.handle.ended = false) :
      Matches (.joined core.key) (.joined ⟨core⟩)
  | pending {core : SessionCore} {outcome : OperationOutcome} (open_ : core.handle.ended = false) :
      Matches (.pending outcome) (.pending ⟨some core, some outcome⟩)
  | completion {core : SessionCore} {outcome : RecoveryOutcome}
      (open_ : core.handle.ended = false) : Matches (.completion outcome) (.completion ⟨core, outcome⟩)

/-- A future that took a handle builds the next one, unless it ends the session. -/
def Future.Resolves (future : Future) (reply : Reply) (state : WorkerState) : Prop :=
  (∃ handle, future.handle reply = some handle ∧ handle.Matches state) ∨
    (future = .endSession ∧ state = .empty)

/-- What the worker answers for a result of the blocking method. -/
structure Answers (result : Value × Output) (answer : Except Payload Reply × WorkerState)
    (reply : Reply) : Prop where
  replied : answer.1 = .ok reply
  carries : reply.Carries result.1 result.2
  retained : retained result.1 = answer.2.value
  inSequence : ∀ error, reply.error? = some error → error.InSequence

/-! ### The arms -/

section

variable {α : Type} {state : WorkerState} {output : Except Error α → Output}
  {reply : Except Error α → Reply}

/-- The replies that carry a result as it is. -/
def Plain (output : Except Error α → Output) (reply : Except Error α → Reply) : Prop :=
  ∀ result, (∀ value, (reply result).Carries value (output result)) ∧
    ∀ error, (reply result).error? = some error → result = .error error

theorem plain_done : Plain .done .done := by
  intro result
  cases result <;> simp [Reply.error?, Reply.Carries.done]

theorem plain_applications : Plain .applications .applications := by
  intro result
  cases result <;> simp [Reply.error?, Reply.Carries.applications]

theorem plain_filters : Plain .filters .filters := by
  intro result
  cases result <;> simp [Reply.error?, Reply.Carries.filters]

theorem retained_value : retained state.value = state.value := by
  cases state <;> rfl

variable [Platform]

/-- A command that borrows the session replies what the method returns. -/
theorem related_replying {method : CrateM α} (hPlain : Plain output reply)
    (hMethod : Fails Error.InSequence method) :
    Related (fun result answer => ∃ r, Answers result answer r ∧ answer.2 = state)
      (borrowing state.value method output) (replying state method reply) := by
  apply (Related.refl hMethod).bind
  rintro _ result ⟨rfl, hResult⟩
  obtain ⟨hCarries, hError⟩ := hPlain result
  apply Related.done
  exact ⟨_, ⟨rfl, hCarries _, retained_value, fun error h => hResult error (hError error h)⟩, rfl⟩

/-- A method that may unwind but does not. -/
theorem related_replyingUnwind {method : UnwindM (Except Error α)} (hPlain : Plain output reply)
    (hMethod : Returns (fun outcome => ∃ result, outcome = .ok result ∧
      ∀ error, result = .error error → error.InSequence) method.run) :
    Related (fun result answer => ∃ r, Answers result answer r ∧ answer.2 = state)
      (borrowingUnwind state.value method output) (replyingUnwind state method reply) := by
  apply (Related.refl hMethod).bind
  rintro _ _ ⟨rfl, result, rfl, hResult⟩
  obtain ⟨hCarries, hError⟩ := hPlain result
  apply Related.done
  exact ⟨_, ⟨rfl, hCarries _, retained_value, fun error h => hResult error (hError error h)⟩, rfl⟩

/-- A method that does not panic, and an arm that builds its reply from what
the method returns. -/
theorem related_replacing {R : Value × Output → Except Payload Reply × WorkerState → Prop}
    {Good : α → Prop} {method : UnwindM α} {next : α → Value × Output}
    {arm : α → UnwindM (Reply × WorkerState)}
    (hMethod : Returns (fun outcome => ∃ result, outcome = .ok result ∧ Good result) method.run)
    (hArm : ∀ result, Good result → ∃ r state, (arm result).run = .done (.ok (r, state)) ∧
      R (next result) (.ok r, state)) :
    Related R (consuming method next) (replacing (method >>= arm)) := by
  unfold consuming replacing
  rw [ExceptT.run_bind, bind_assoc]
  apply (Related.refl hMethod).bind
  rintro _ _ ⟨rfl, result, rfl, hResult⟩
  obtain ⟨r, state, hRun, hR⟩ := hArm result hResult
  change Related R _ ((arm result).run >>= _)
  rw [hRun]
  exact .done hR

/-- An arm that ends the session leaves nothing behind. -/
theorem related_ending {result : Type} {method : Native (Except Error result)}
    {R : Value × Output → Except Payload Reply × WorkerState → Prop} {P : Except Error result → Prop}
    {output : Except Error result → Output} {reply : Except Error result → Reply}
    (hMethod : Returns P method)
    (hR : ∀ r, P r → R (.gone, output r) (.ok (reply r), .empty)) :
    Related R (do return (.gone, output (← method)))
      (replacing do return (reply (← ExceptT.lift method), .empty)) := by
  unfold replacing
  rw [ExceptT.run_bind, ExceptT.run_lift, map_eq_pure_bind, bind_assoc, bind_assoc]
  apply (Related.refl hMethod).bind
  rintro _ r ⟨rfl, hResult⟩
  exact .done (hR r hResult)

end

variable [Platform] {handle : Handle} {state : WorkerState} {op : Op} {command : Command}

/-! ### The commands -/

/-- A method that borrows its handle, through the worker. -/
theorem borrowed_refines (hMatches : handle.Matches state)
    (hSends : handle.borrowed op = some command) :
    ∃ p, perform state.value op = some p ∧
      Related (fun result answer => ∃ reply, Answers result answer reply ∧ answer.2 = state) p
        (executeCommand command state) := by
  cases hMatches with
  | @session core hOpen =>
      cases op <;> simp only [Handle.borrowed, reduceCtorEq, Option.some.injEq] at hSends <;>
        subst hSends
      case registerResources =>
        exact ⟨_, rfl, related_replying plain_done (core.registerResources_inSequence _)⟩
      case registerFiles =>
        exact ⟨_, rfl, related_replying plain_done (core.registerResources_inSequence _)⟩
      case registerProcesses =>
        exact ⟨_, rfl, related_replying plain_done (core.registerResources_inSequence _)⟩
      case registerServices =>
        exact ⟨_, rfl, related_replying plain_done (core.registerResources_inSequence _)⟩
      case affectedApplications =>
        exact ⟨_, rfl, related_replying plain_applications core.affectedApplications_inSequence⟩
      case setFilter target action =>
        exact ⟨_, rfl, related_replyingUnwind plain_done
          (RestartSession.setFilter_inSequence ⟨core⟩ target action)⟩
      case removeFilter target =>
        exact ⟨_, rfl, related_replyingUnwind plain_done
          (RestartSession.removeFilter_inSequence ⟨core⟩ target)⟩
      case filters =>
        exact ⟨_, rfl, related_replying plain_filters (RestartSession.filters_inSequence ⟨core⟩)⟩
  | @joined core hOpen =>
      cases op <;> simp only [Handle.borrowed, reduceCtorEq, Option.some.injEq] at hSends <;>
        subst hSends
      case registerResources =>
        exact ⟨_, rfl, related_replying plain_done (core.registerResources_inSequence _)⟩
      case registerFiles =>
        exact ⟨_, rfl, related_replying plain_done (core.registerResources_inSequence _)⟩
      case registerProcesses =>
        exact ⟨_, rfl, related_replying plain_done (core.registerResources_inSequence _)⟩
      case registerServices =>
        exact ⟨_, rfl, related_replying plain_done (core.registerResources_inSequence _)⟩
  | pending hOpen => cases op <;> cases hSends
  | @completion core outcome hOpen =>
      cases op <;> simp only [Handle.borrowed, reduceCtorEq, Option.some.injEq] at hSends
      subst hSends
      case affectedApplications =>
        exact ⟨_, rfl, related_replying plain_applications core.affectedApplications_inSequence⟩

section

variable {core : SessionCore} (hOpen : core.handle.ended = false)
include hOpen

/-- The worker shuts down as the blocking session does. -/
theorem shutdown_refines (options : ShutdownOptions) :
    Related (fun result answer => ∃ reply, Answers result answer reply ∧
        (Future.shutdown core.key core.handle.raw).Resolves reply answer.2)
      (consuming (RestartSession.shutdownWithOptions ⟨core⟩ options) fun pending =>
        (.pending pending, .state))
      (executeCommand (.shutdown options) (.primary ⟨core⟩)) := by
  have hMethod : Returns (fun result => ∃ pending, result = .ok pending ∧
      ∃ outcome, pending = ⟨some core, some outcome⟩)
      (RestartSession.shutdownWithOptions ⟨core⟩ options).run := by
    apply returns_of_wp _ (wp_shutdownWithOptions options) fun _ _ _ => trivial
    rintro _ _ ⟨outcome, rfl, -⟩
    exact ⟨_, rfl, outcome, rfl⟩
  apply related_replacing hMethod
  rintro _ ⟨outcome, rfl⟩
  refine ⟨_, _, rfl, _, ⟨rfl, .pending rfl, rfl, ?_⟩, .inl ⟨_, rfl, .pending hOpen⟩⟩
  intro error h
  cases h

/-- With progress: a refusal keeps the session, and the shutdown replaces it. -/
theorem shutdownWithProgress_refines (options : ShutdownOptions) :
    Related (fun result answer => ∃ reply, Answers result answer reply ∧
        (Future.shutdown core.key core.handle.raw).Resolves reply answer.2)
      (consuming (RestartSession.shutdownWithProgress ⟨core⟩ options .watch) fun
        | .ok pending => (.pending pending, .state)
        | .error error => (.shutdownNotStarted error, .notStarted error.error))
      (executeCommand (.shutdownWithProgress options) (.primary ⟨core⟩)) := by
  have hMethod : Returns (fun result => ∃ started, result = .ok started ∧
      ((∃ outcome, started = .ok ⟨some core, some outcome⟩) ∨
        started = .error ⟨⟨core⟩, mapSysError .callbackInUse⟩))
      (RestartSession.shutdownWithProgress ⟨core⟩ options .watch).run := by
    apply returns_of_wp _ (wp_shutdownWithProgress hOpen options .watch) fun _ _ _ => trivial
    rintro (payload | (error | pending)) _ h
    · cases h.1
    · obtain ⟨rfl, -⟩ := h
      exact ⟨_, rfl, .inr rfl⟩
    · obtain ⟨⟨outcome, rfl⟩, -⟩ := h
      exact ⟨_, rfl, .inl ⟨outcome, rfl⟩⟩
  apply related_replacing hMethod
  rintro _ (⟨outcome, rfl⟩ | rfl)
  · refine ⟨_, _, rfl, _, ⟨rfl, .pending rfl, rfl, ?_⟩, .inl ⟨_, rfl, .pending hOpen⟩⟩
    intro error h
    cases h
  · refine ⟨_, _, rfl, _, ⟨rfl, .shutdownNotStarted, rfl, ?_⟩, .inl ⟨_, rfl, .session hOpen⟩⟩
    intro error h
    cases h
    exact mapSysError_inSequence _

/-- The worker restarts as the pending recovery does. -/
theorem restart_refines (outcome : OperationOutcome) :
    Related (fun result answer => ∃ reply, Answers result answer reply ∧
        Future.restart.Resolves reply answer.2)
      (consuming (RestartPending.restart ⟨some core, some outcome⟩) fun completion =>
        (.completion completion, .state))
      (executeCommand .restart (.pending ⟨some core, some outcome⟩)) := by
  have hMethod : Returns (fun result => ∃ completion, result = .ok completion ∧
      completion.core = core) (RestartPending.restart ⟨some core, some outcome⟩).run := by
    apply returns_of_wp _ wp_restart fun _ _ _ => trivial
    rintro _ _ ⟨completion, rfl, hCore, -⟩
    exact ⟨_, rfl, hCore⟩
  apply related_replacing hMethod
  rintro completion rfl
  refine ⟨_, _, rfl, _, ⟨rfl, .completion, rfl, ?_⟩, .inl ⟨_, rfl, .completion hOpen⟩⟩
  intro error h
  cases h

/-- With progress: a refusal keeps the pending recovery. -/
theorem restartWithProgress_refines (outcome : OperationOutcome) :
    Related (fun result answer => ∃ reply, Answers result answer reply ∧
        (Future.restartWithProgress outcome).Resolves reply answer.2)
      (consuming (RestartPending.restartWithProgress ⟨some core, some outcome⟩ .watch) fun
        | .ok completion => (.completion completion, .state)
        | .error error => (.restartNotStarted error, .notStarted error.error))
      (executeCommand .restartWithProgress (.pending ⟨some core, some outcome⟩)) := by
  have hMethod : Returns (fun result => ∃ started, result = .ok started ∧
      ((∃ completion, started = .ok completion ∧ completion.core = core) ∨
        started = .error ⟨⟨some core, some outcome⟩, mapSysError .callbackInUse⟩))
      (RestartPending.restartWithProgress ⟨some core, some outcome⟩ .watch).run := by
    apply returns_of_wp _ (wp_restartWithProgress hOpen .watch) fun _ _ _ => trivial
    rintro (payload | (error | completion)) _ h
    · cases h.1
    · obtain ⟨rfl, -⟩ := h
      exact ⟨_, rfl, .inr rfl⟩
    · exact ⟨_, rfl, .inl ⟨completion, rfl, h.1⟩⟩
  apply related_replacing hMethod
  rintro _ (⟨completion, rfl, rfl⟩ | rfl)
  · refine ⟨_, _, rfl, _, ⟨rfl, .completed, rfl, ?_⟩, .inl ⟨_, rfl, .completion hOpen⟩⟩
    intro error h
    cases h
  · refine ⟨_, _, rfl, _, ⟨rfl, .restartNotStarted, rfl, ?_⟩, .inl ⟨_, rfl, .pending hOpen⟩⟩
    intro error h
    cases h
    exact mapSysError_inSequence _

/-- The worker leaves the applications stopped. -/
theorem leaveStopped_refines (outcome : OperationOutcome) :
    Related (fun result answer => ∃ reply, Answers result answer reply ∧
        Future.leaveStopped.Resolves reply answer.2)
      (consuming (RestartPending.leaveStopped ⟨some core, some outcome⟩) fun completion =>
        (.completion completion, .state))
      (executeCommand .leaveStopped (.pending ⟨some core, some outcome⟩)) := by
  refine .done ⟨_, ⟨rfl, .completion, rfl, ?_⟩, .inl ⟨_, rfl, .completion hOpen⟩⟩
  intro error h
  cases h

end

/-- The worker ends the session and has nothing left. -/
theorem end_refines {core : SessionCore} :
    Related (fun result answer => ∃ reply, Answers result answer reply ∧
        Future.endSession.Resolves reply answer.2)
      (do return ((.gone, .done (← core.end)) : Value × Output))
      (replacing do return (.done (← ExceptT.lift core.end), .empty)) := by
  apply related_ending core.end_inSequence
  intro r hResult
  obtain ⟨hCarries, hError⟩ := plain_done r
  exact ⟨_, ⟨rfl, hCarries _, rfl, fun error h => hResult error (hError error h)⟩, .inr ⟨rfl, rfl⟩⟩

/-- A method that takes its handle, through the worker. -/
theorem consumed_refines {future : Future} (hMatches : handle.Matches state)
    (hSends : handle.consumed op = some (command, future)) :
    ∃ p, perform state.value op = some p ∧
      Related (fun result answer => ∃ reply, Answers result answer reply ∧
        future.Resolves reply answer.2) p (executeCommand command state) := by
  cases hMatches with
  | @session core hOpen =>
      cases op <;> try cases hSends
      case shutdown.refl => exact ⟨_, rfl, shutdown_refines hOpen _⟩
      case shutdownWithOptions.refl options => exact ⟨_, rfl, shutdown_refines hOpen options⟩
      case shutdownWithProgress options callback =>
        cases callback <;> cases hSends
        exact ⟨_, rfl, shutdownWithProgress_refines hOpen options⟩
      case endSession.refl => exact ⟨_, rfl, end_refines⟩
  | @joined core hOpen =>
      cases op <;> cases hSends
      case endSession.refl => exact ⟨_, rfl, end_refines⟩
  | @pending core outcome hOpen =>
      cases op <;> try cases hSends
      case restart.refl => exact ⟨_, rfl, restart_refines hOpen outcome⟩
      case restartWithProgress callback =>
        cases callback <;> cases hSends
        exact ⟨_, rfl, restartWithProgress_refines hOpen outcome⟩
      case leaveStopped.refl => exact ⟨_, rfl, leaveStopped_refines hOpen outcome⟩
  | @completion core outcome hOpen =>
      cases op <;> cases hSends
      case endSession.refl =>
        refine ⟨_, rfl, ?_⟩
        have hMethod : Returns (fun result => ∀ error, result = .error error → error.InSequence)
            (RecoveryCompletion.end ⟨core, outcome⟩) := by
          apply core.end_inSequence.bind
          rintro (error | value) hResult error' h
          · cases h
            exact hResult error rfl
          · cases h
        apply related_ending hMethod
        intro r hResult
        refine ⟨_, ⟨rfl, .ended, rfl, ?_⟩, .inr ⟨rfl, rfl⟩⟩
        intro error h
        cases r <;> cases h
        exact hResult error rfl

end Tokio
end RestartManager
