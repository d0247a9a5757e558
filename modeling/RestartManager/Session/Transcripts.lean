import RestartManager.Session.Delivery

/-! Every complete run of the methods that move a session on: the native calls
they make, in order, and what they return for each answer. -/
namespace RestartManager

open Interaction Program

/-- What is retained about a native call that returned `code`, when these
reports reached the progress closure. -/
def retainedOutcome (operation : Operation) (reports : List UInt32) (code : UInt32) : OperationOutcome :=
  if code ≠ ERROR_SUCCESS then .failed (mapOperationError (.os code) operation)
  else if Increasing reports then .succeeded
  else .failed malformedProgressError

/-- The reports reach the closure only if the call was given the trampoline. -/
def OperationReply.outcome (reply : OperationReply) (operation : Operation) (trampoline : Bool) :
    OperationOutcome :=
  retainedOutcome operation (if trampoline then reply.reports else []) reply.code

/-- The error of a refused operation. -/
abbrev callbackInUseError : Error := mapSysError .callbackInUse

/-- The outcome of a call without progress is what its code says. -/
theorem outcome_plain (reply : OperationReply) (operation : Operation) :
    OperationOutcome.fromResult ((check reply.code).mapError (mapOperationError · operation)) =
      reply.outcome operation false := by
  by_cases hCode : reply.code = ERROR_SUCCESS
  · simp [check, hCode, OperationReply.outcome, retainedOutcome, OperationOutcome.fromResult,
      Except.mapError, Increasing]
  · simp [check, hCode, OperationReply.outcome, retainedOutcome, OperationOutcome.fromResult,
      Except.mapError]

variable [Platform]

/-- The native call of an event, without the callback it was given. -/
def withoutCallback : Event → Option Event
  | ⟨.rmShutdown raw flags _, reply⟩ => some ⟨.rmShutdown raw flags false, reply⟩
  | ⟨.rmRestart raw flags _, reply⟩ => some ⟨.rmRestart raw flags false, reply⟩
  | ⟨.installLease, _⟩ | ⟨.releaseLease, _⟩ | ⟨.invokeCallback _, _⟩ | ⟨.sendReplace _, _⟩ => none
  | event => some event

/-- What Windows sees of a run, up to the callback argument. -/
def nativeTrace (trace : Trace) : Trace := trace.filterMap withoutCallback

theorem nativeTrace_append (first second : Trace) :
    nativeTrace (first ++ second) = nativeTrace first ++ nativeTrace second := List.filterMap_append

/-- Reports are no native calls. -/
theorem nativeTrace_delivered (callback : Callback) (values : List Progress) :
    nativeTrace (values.map callback.delivered) = [] := by
  rw [nativeTrace, List.filterMap_eq_nil_iff]
  intro event hMem
  obtain ⟨progress, -, rfl⟩ := List.mem_map.mp hMem
  cases callback <;> rfl

/-! ### The plain methods -/

section Plain

variable {trace : Trace}

/-- The destructor makes its call exactly where the flag is not set. -/
theorem exec_handle_drop_iff {handle : SessionHandle} :
    handle.drop.Exec trace () ↔
      (handle.ended = true ∧ trace = []) ∨
      (handle.ended = false ∧ ∃ code, trace = [⟨.rmEndSession handle.raw, code⟩]) := by
  unfold SessionHandle.drop
  cases handle.ended with
  | true => simp
  | false =>
      have hEnd : (do
          let _ ← Program.request (Call.rmEndSession handle.raw)
          return () : Native Unit).Exec trace () ↔
          ∃ code, trace = [⟨.rmEndSession handle.raw, code⟩] := by
        simp [Program.exec_call_iff]
      simpa using hEnd

/-- The drop of an armed value: one restart, and then the end of the session. -/
theorem exec_pending_drop_iff {core : SessionCore} {shutdown : Option OperationOutcome} :
    (RestartPending.mk (some core) shutdown).drop.Exec trace () ↔
      ∃ reply rest, trace = ⟨.rmRestart core.handle.raw 0 false, reply⟩ :: rest ∧
        core.drop.Exec rest () := by
  have hDrop : (RestartPending.mk (some core) shutdown).drop =
      .call (.rmRestart core.handle.raw 0 false) fun _ => core.drop := rfl
  rw [hDrop, Program.exec_call_iff]

/-- A shutdown is its one call. -/
theorem shutdownWithOptions_run (session : RestartSession) (options : ShutdownOptions) :
    (session.shutdownWithOptions options).run =
      .call (.rmShutdown session.core.handle.raw options.nativeFlags false) fun reply =>
        .done (.ok ⟨some session.core, some (reply.outcome .shutdown false)⟩) := by
  simp only [← outcome_plain]
  rfl

/-- A restart is its one call. -/
theorem restart_run (core : SessionCore) (shutdown : OperationOutcome) :
    (RestartPending.mk (some core) (some shutdown)).restart.run =
      .call (.rmRestart core.handle.raw 0 false) fun reply =>
        .done (.ok ⟨core, ⟨shutdown, some (reply.outcome .restart false)⟩⟩) := by
  simp only [← outcome_plain]
  rfl

/-- Leaving the applications stopped is none. -/
theorem leaveStopped_run (core : SessionCore) (shutdown : OperationOutcome) :
    (RestartPending.mk (some core) (some shutdown)).leaveStopped.run =
      .done (.ok ⟨core, ⟨shutdown, none⟩⟩) := rfl

end Plain

/-! ### The methods with progress -/

/-- The complete runs of a method with a progress callback: a refusal makes no
native call, a return follows the delivery of every value, and a panic of the
caller's callback is resumed once the lease is released, and drops what the
method owned. -/
inductive ProgressRun {α : Type} (callback : Callback) (native : OperationReply → Event)
    (refused : α) (completed : OperationReply → α) (abandoned : Native Unit) :
    Trace → Except Payload α → Prop
  | refused : ProgressRun callback native refused completed abandoned [⟨.installLease, false⟩]
      (.ok refused)
  | completed {reply : OperationReply} : ProgressRun callback native refused completed abandoned
      (⟨.installLease, true⟩ :: native reply ::
        ((deliveries none reply.reports).map callback.delivered ++ [⟨.releaseLease, ()⟩]))
      (.ok (completed reply))
  | panicked {reply : OperationReply} {before rest : List Progress} {progress : Progress}
      {payload : Payload} {recovery : Trace}
      (reached : deliveries none reply.reports = before ++ progress :: rest)
      (user : callback = .user) (dropped : abandoned.Exec recovery ()) :
      ProgressRun callback native refused completed abandoned
        (⟨.installLease, true⟩ :: native reply ::
          (before.map callback.delivered ++ (panicked progress payload :: ⟨.releaseLease, ()⟩ ::
            recovery)))
        (.error payload)

section Progress

variable {callback : Callback} {trace : Trace}

omit [Platform] in
/-- The outcome of a call whose reports were delivered without a panic. -/
theorem outcome_delivered (reply : OperationReply) (operation : Operation) :
    (match check reply.code with
      | .error error => OperationOutcome.failed (mapOperationError error operation)
      | .ok () =>
          if (Delivery.after none reply.reports).malformed then .failed malformedProgressError
          else .succeeded) = reply.outcome operation true := by
  by_cases hCode : reply.code = ERROR_SUCCESS
  · simp [check, hCode, OperationReply.outcome, retainedOutcome, Delivery.after, map_deliveries_eq]
  · simp [check, hCode, OperationReply.outcome, retainedOutcome]

/-- A method is its native call with the closure, followed by what it does for
a refusal, for an answer and for a panic. -/
theorem exec_progress_iff {α : Type} {operation : Bool → Native OperationReply}
    {native : OperationReply → Event} {refused : α} {completed : OperationReply → α}
    {abandoned : Native Unit} {result : Except Payload α}
    {next : Except Payload (SysResult Unit) × Delivery → Native (Except Payload α)}
    (hNative : ∀ trace reply, (operation true).Exec trace reply ↔ trace = [native reply])
    (hRefused : next (.ok (.error .callbackInUse), ⟨none, false⟩) = .done (.ok refused))
    (hCompleted : ∀ reply : OperationReply, next (.ok (check reply.code), .after none reply.reports) =
      .done (.ok (completed reply)))
    (hPanicked : ∀ payload captured, next (.error payload, captured) =
      abandoned >>= fun _ => .done (.error payload)) :
    (runWithCallback (deliverProgress callback) ⟨none, false⟩ operation >>= next).Exec trace result ↔
      ProgressRun callback native refused completed abandoned trace result := by
  rw [exec_bind_iff]
  constructor
  · rintro ⟨first, second, outcome, rfl, hRun, hNext⟩
    rcases exec_runWithCallback_iff.mp hRun with ⟨rfl, rfl⟩ |
      ⟨called, reply, delivered, state, hCall, hDelivered, rfl, rfl⟩
    · rw [hRefused, exec_done_iff] at hNext
      obtain ⟨rfl, rfl⟩ := hNext
      exact .refused
    · obtain rfl := (hNative _ _).mp hCall
      cases hDelivered with
      | all =>
          rw [hCompleted, exec_done_iff] at hNext
          obtain ⟨rfl, rfl⟩ := hNext
          rw [List.append_nil]
          exact .completed
      | panic reached user =>
          rw [hPanicked] at hNext
          obtain ⟨recovery, rest, ⟨⟩, rfl, hDrop, hReturn⟩ := exec_bind_iff.mp hNext
          obtain ⟨rfl, rfl⟩ := exec_done_iff.mp hReturn
          simpa using ProgressRun.panicked reached user hDrop
  · intro h
    cases h with
    | refused =>
        refine ⟨_, [], _, (List.append_nil _).symm, exec_runWithCallback_iff.mpr (.inl ⟨rfl, rfl⟩), ?_⟩
        rw [hRefused]
        exact .refl _
    | @completed reply =>
        refine ⟨_, [], _, (List.append_nil _).symm, exec_runWithCallback_iff.mpr (.inr
          ⟨_, reply, _, _, (hNative _ _).mpr rfl, .all, rfl, rfl⟩), ?_⟩
        rw [hCompleted]
        exact .refl _
    | @panicked reply before rest progress payload recovery reached user dropped =>
        refine ⟨⟨.installLease, true⟩ :: ([native reply] ++ ((before.map callback.delivered ++
          [panicked progress payload]) ++ [⟨.releaseLease, ()⟩])), recovery, _, by simp,
          exec_runWithCallback_iff.mpr (.inr ⟨_, reply, _, _, (hNative _ _).mpr rfl,
            .panic reached user, rfl, rfl⟩), ?_⟩
        rw [hPanicked]
        exact exec_bind_iff.mpr ⟨recovery, [], (), (List.append_nil _).symm, dropped, .refl _⟩

theorem exec_request_iff {c : Call} {response : c.Response} :
    (Program.request c : Native c.Response).Exec trace response ↔ trace = [⟨c, response⟩] := by
  rw [Program.request, Program.exec_call_iff]
  simp

/-- A panic runs the drop of what is owned, and then goes on. -/
theorem run_unwind_bind {α β : Type} (p : Native Unit) (payload : Payload) (f : α → UnwindM β) :
    ((do
      ExceptT.lift p
      throw payload : UnwindM α) >>= f).run = p >>= fun _ => .done (.error payload) := by
  rw [bind_assoc, run_lift_bind]
  rfl

omit [Platform] in
theorem check_eq_error {code : UInt32} {error : SysError} (h : check code = .error error) :
    error = .os code := by
  unfold check at h
  split at h
  · cases h
  · exact (Except.error.inj h).symm

/-- A shutdown with progress: the runs of one native call with its callback. -/
theorem exec_shutdownWithProgress_iff {session : RestartSession} {options : ShutdownOptions}
    {result : Except Payload (Except (OperationNotStarted RestartSession) RestartPending)} :
    (session.shutdownWithProgress options callback).run.Exec trace result ↔
      ProgressRun callback
        (fun reply => ⟨.rmShutdown session.core.handle.raw options.nativeFlags true, reply⟩)
        (.error ⟨session, callbackInUseError⟩)
        (fun reply => .ok ⟨some session.core, some (reply.outcome .shutdown true)⟩)
        (RestartPending.new session.core).drop trace result := by
  unfold RestartSession.shutdownWithProgress SessionHandle.shutdownWithProgress
  simp only [RestartPending.new, RestartPending.coreRef, RestartPending.unwinding, pure_bind]
  rw [run_lift_bind]
  apply exec_progress_iff
  · exact fun trace reply => exec_request_iff
  · rfl
  · intro reply
    rw [← outcome_delivered]
    cases hCode : check reply.code with
    | ok value => rfl
    | error error =>
        obtain rfl := check_eq_error hCode
        rfl
  · exact fun payload captured => run_unwind_bind _ _ _

/-- A restart with progress likewise. -/
theorem exec_restartWithProgress_iff {core : SessionCore} {shutdown : OperationOutcome}
    {result : Except Payload (Except (OperationNotStarted RestartPending) RecoveryCompletion)} :
    ((RestartPending.mk (some core) (some shutdown)).restartWithProgress callback).run.Exec trace
        result ↔
      ProgressRun callback (fun reply => ⟨.rmRestart core.handle.raw 0 true, reply⟩)
        (.error ⟨⟨some core, some shutdown⟩, callbackInUseError⟩)
        (fun reply => .ok ⟨core, ⟨shutdown, some (reply.outcome .restart true)⟩⟩)
        (RestartPending.mk (some core) (some shutdown)).drop trace result := by
  unfold RestartPending.restartWithProgress SessionHandle.restartWithProgress
  simp only [RestartPending.coreRef, RestartPending.unwinding, pure_bind]
  rw [run_lift_bind]
  apply exec_progress_iff
  · exact fun trace reply => exec_request_iff
  · rfl
  · intro reply
    rw [← outcome_delivered]
    cases hCode : check reply.code with
    | ok value => rfl
    | error error =>
        obtain rfl := check_eq_error hCode
        rfl
  · exact fun payload captured => run_unwind_bind _ _ _

end Progress

end RestartManager
