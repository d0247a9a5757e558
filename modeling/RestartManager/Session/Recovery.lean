import RestartManager.Session.Api
import RestartManager.Session.Footprint

/-! The recovery obligation of a session: what a shutdown attempt commits its
owner to. The obligation is followed by a monitor, and every method is proved
once against the monitor, for every answer of the environment. -/
namespace RestartManager

open Interaction Contract

/-- How far the obligation has come. -/
inductive Phase
  | registering
  | armed
  | recovered
  | left
  deriving DecidableEq, Repr

/-- `live` is the native handle of a start that succeeded, until the first
attempt to end that session. -/
structure Monitor where
  live : Option UInt32
  phase : Phase
  deriving DecidableEq, Repr

/-- A native code never says that the operation was not started. -/
theorem operationNotStarted_check {code : UInt32} {error : SysError} (h : check code = .error error) :
    operationNotStarted error = false := by
  unfold check at h
  split at h
  · cases h
  · cases h
    rfl

variable [Platform]

/-- The calls that the obligation allows, and where each one leads. Windows
may answer anything. -/
def recoveryContract : Contract Call.Response Monitor where
  guarantee s c := match c with
    | .rmRegisterResources .. | .rmAddFilter .. | .rmRemoveFilter .. | .rmGetFilterList ..
    | .rmShutdown .. => s.phase = .registering
    | .rmRestart .. => s.phase = .armed ∨ s.phase = .recovered
    | .rmEndSession raw => s.phase ≠ .armed ∧ ∀ live, s.live = some live → live = raw
    | .rmStartSession | .rmJoinSession _ => s.live = none
    | _ => True
  rely _ _ _ := True
  next s c := match c with
    | .rmStartSession => fun reply =>
        { s with live := if reply.code = ERROR_SUCCESS then some reply.raw else none }
    | .rmJoinSession _ => fun reply =>
        { s with live := if reply.code = ERROR_SUCCESS then some reply.raw else none }
    | .rmShutdown .. => fun _ => { s with phase := .armed }
    | .rmRestart .. => fun _ => { s with phase := .recovered }
    | .rmEndSession _ => fun _ => { s with live := none }
    | _ => fun _ => s

/-- Leaving the applications stopped ends the obligation. -/
def Monitor.mark (s : Monitor) : Op → Monitor
  | .leaveStopped => { s with phase := .left }
  | _ => s

/-- What an owner holds agrees with the monitor. Its handle is the live one, no
handle that is still held has been ended, and a pending value has both parts. -/
inductive Value.Fits : Monitor → Value → Prop
  | session {value : RestartSession} (open_ : value.core.handle.ended = false) :
      Fits ⟨some value.core.handle.raw, .registering⟩ (.session value)
  | joined {value : JoinedSession} (open_ : value.core.handle.ended = false) :
      Fits ⟨some value.core.handle.raw, .registering⟩ (.joined value)
  | pending {core : SessionCore} {outcome : OperationOutcome} (open_ : core.handle.ended = false) :
      Fits ⟨some core.handle.raw, .armed⟩ (.pending ⟨some core, some outcome⟩)
  | completion {value : RecoveryCompletion} {phase : Phase} (open_ : value.core.handle.ended = false)
      (met : phase = .recovered ∨ phase = .left) :
      Fits ⟨some value.core.handle.raw, phase⟩ (.completion value)
  | shutdownNotStarted {state : RestartSession} {error : Error}
      (open_ : state.core.handle.ended = false) :
      Fits ⟨some state.core.handle.raw, .registering⟩ (.shutdownNotStarted ⟨state, error⟩)
  | restartNotStarted {core : SessionCore} {outcome : OperationOutcome} {error : Error}
      (open_ : core.handle.ended = false) :
      Fits ⟨some core.handle.raw, .armed⟩ (.restartNotStarted ⟨⟨some core, some outcome⟩, error⟩)
  | gone {phase : Phase} : Fits ⟨none, phase⟩ .gone

/-- What the callbacks do is no business of the monitor. -/
theorem recoveryContract_callsBack (s : Monitor) : recoveryContract.Ignores s Call.CallsBack := by
  intro c h
  cases c <;> first | exact h.elim | exact ⟨trivial, fun _ _ => rfl⟩

/-! ### Ending and dropping -/

section

variable {handle : SessionHandle} {core : SessionCore} {phase : Phase}

/-- The drop of a handle closes the session where it is open and nothing is pending. -/
theorem wp_handle_drop {live : Option UInt32} (hPhase : phase ≠ .armed)
    (hLive : ∀ raw, live = some raw → raw = handle.raw) (hOpen : handle.ended = false ∨ live = none) :
    recoveryContract.wp handle.drop (fun _ s => s = ⟨none, phase⟩) ⟨live, phase⟩ := by
  unfold SessionHandle.drop
  cases hEnded : handle.ended with
  | false => exact ⟨⟨hPhase, hLive⟩, fun _ _ => rfl⟩
  | true =>
      obtain rfl : live = none := hOpen.resolve_left (by simp [hEnded])
      rfl

/-- The drop of an open session closes it. -/
theorem wp_open_drop (hPhase : phase ≠ .armed) (hOpen : handle.ended = false) :
    recoveryContract.wp handle.drop (fun _ s => s = ⟨none, phase⟩) ⟨some handle.raw, phase⟩ :=
  wp_handle_drop hPhase (fun _ h => (Option.some.inj h).symm) (.inl hOpen)

/-- An end closes the session, at its first attempt or in the drop. -/
theorem wp_handle_end (hPhase : phase ≠ .armed) (hOpen : handle.ended = false) :
    recoveryContract.wp handle.end (fun _ s => s = ⟨none, phase⟩) ⟨some handle.raw, phase⟩ := by
  unfold SessionHandle.end
  rw [hOpen]
  exact ⟨⟨hPhase, fun _ h => (Option.some.inj h).symm⟩, fun _ _ => rfl⟩

/-- A failed end is tried once more by the drop that follows. -/
theorem wp_core_end (hPhase : phase ≠ .armed) (hOpen : core.handle.ended = false) :
    recoveryContract.wp core.end (fun _ s => s = ⟨none, phase⟩) ⟨some core.handle.raw, phase⟩ := by
  refine (wp_bind _ _ _ _ _).mpr (wp_mono _ (wp_handle_end hPhase hOpen) ?_)
  rintro ⟨result, handle⟩ _ rfl
  refine (wp_bind _ _ _ _ _).mpr (wp_mono _ (wp_handle_drop hPhase nofun (.inr rfl)) ?_)
  rintro _ _ rfl
  rfl

/-- A restart meets the obligation. -/
theorem wp_handle_restart (hPhase : phase = .armed ∨ phase = .recovered) (live : Option UInt32) :
    recoveryContract.wp handle.restart.run (fun _ s => s = ⟨live, .recovered⟩) ⟨live, phase⟩ := by
  unfold SessionHandle.restart
  rw [wp_run_bind, wp_sysCall]
  exact ⟨hPhase, fun _ _ => rfl⟩

/-- The drop of an armed value restarts before it ends the session. -/
theorem wp_pending_drop (hPhase : phase = .armed ∨ phase = .recovered)
    (hOpen : core.handle.ended = false) (shutdown : Option OperationOutcome) :
    recoveryContract.wp (RestartPending.mk (some core) shutdown).drop
      (fun _ s => s = ⟨none, .recovered⟩) ⟨some core.handle.raw, phase⟩ := by
  refine (wp_bind _ _ _ _ _).mpr (wp_mono _ (wp_handle_restart hPhase _) ?_)
  rintro _ _ rfl
  exact wp_open_drop (by decide) hOpen

/-! ### Shutdown and restart -/

/-- Whatever the plain shutdown returns, its owner is armed. -/
theorem wp_shutdownWithOptions {session : RestartSession} (options : ShutdownOptions) :
    recoveryContract.wp (session.shutdownWithOptions options).run
      (fun result s => ∃ outcome, result = .ok ⟨some session.core, some outcome⟩ ∧
        s = ⟨some session.core.handle.raw, .armed⟩)
      ⟨some session.core.handle.raw, .registering⟩ := by
  unfold RestartSession.shutdownWithOptions SessionHandle.shutdown
  simp only [RestartPending.new, RestartPending.coreRef, RestartPending.unwinding, pure_bind]
  rw [wp_run_bind, wp_run_lift, wp_mapErr, wp_run_bind, wp_sysCall]
  exact ⟨rfl, fun reply _ => ⟨_, rfl, rfl⟩⟩

/-- A refused shutdown gives the session back; any other one arms its owner,
and a panic recovers the session while it unwinds. -/
theorem wp_shutdownWithProgress {session : RestartSession}
    (hOpen : session.core.handle.ended = false) (options : ShutdownOptions) (callback : Callback) :
    recoveryContract.wp (session.shutdownWithProgress options callback).run
      (fun result s => match result with
        | .ok (.ok pending) => (∃ outcome, pending = ⟨some session.core, some outcome⟩) ∧
            s = ⟨some session.core.handle.raw, .armed⟩
        | .ok (.error error) => error = ⟨session, mapSysError .callbackInUse⟩ ∧
            s = ⟨some session.core.handle.raw, .registering⟩
        | .error _ => callback = .user ∧ s = ⟨none, .recovered⟩)
      ⟨some session.core.handle.raw, .registering⟩ := by
  unfold RestartSession.shutdownWithProgress SessionHandle.shutdownWithProgress
  simp only [RestartPending.new, RestartPending.coreRef, RestartPending.unwinding, pure_bind]
  rw [wp_run_bind, wp_run_lift]
  refine wp_runWithCallback recoveryContract_callsBack ⟨rfl, rfl⟩ ?_
  refine ⟨rfl, fun reply _ delivery => ⟨fun payload hUser => ?_, ?_⟩⟩
  · dsimp only
    rw [wp_run_bind, wp_run_bind, wp_run_lift]
    refine wp_mono _ (wp_pending_drop (.inl rfl) hOpen _) ?_
    rintro _ _ rfl
    exact ⟨hUser, rfl⟩
  · cases hCode : check reply.code with
    | ok value => exact ⟨⟨_, rfl⟩, rfl⟩
    | error error =>
        have hStarted := operationNotStarted_check hCode
        simp only [pure_bind, hStarted]
        exact ⟨⟨_, rfl⟩, rfl⟩

/-- The restart of a pending recovery meets it and keeps the session. -/
theorem wp_restart {outcome : OperationOutcome} :
    recoveryContract.wp (RestartPending.mk (some core) (some outcome)).restart.run
      (fun result s => ∃ completion, result = .ok completion ∧ completion.core = core ∧
        s = ⟨some core.handle.raw, .recovered⟩) ⟨some core.handle.raw, .armed⟩ := by
  unfold RestartPending.restart
  simp only [RestartPending.coreRef, RestartPending.unwinding, pure_bind]
  rw [wp_run_bind, wp_run_lift, wp_mapErr]
  refine wp_mono _ (wp_handle_restart (.inl rfl) _) ?_
  rintro result _ rfl
  exact ⟨_, rfl, rfl, rfl⟩

/-- A refused restart gives the pending value back. A panic drops that value,
which restarts once more. -/
theorem wp_restartWithProgress {outcome : OperationOutcome} (hOpen : core.handle.ended = false)
    (callback : Callback) :
    recoveryContract.wp ((RestartPending.mk (some core) (some outcome)).restartWithProgress callback).run
      (fun result s => match result with
        | .ok (.ok completion) => completion.core = core ∧ s = ⟨some core.handle.raw, .recovered⟩
        | .ok (.error error) => error = ⟨⟨some core, some outcome⟩, mapSysError .callbackInUse⟩ ∧
            s = ⟨some core.handle.raw, .armed⟩
        | .error _ => callback = .user ∧ s = ⟨none, .recovered⟩) ⟨some core.handle.raw, .armed⟩ := by
  unfold RestartPending.restartWithProgress SessionHandle.restartWithProgress
  simp only [RestartPending.coreRef, RestartPending.unwinding, pure_bind]
  rw [wp_run_bind, wp_run_lift]
  refine wp_runWithCallback recoveryContract_callsBack ⟨rfl, rfl⟩ ?_
  refine ⟨.inl rfl, fun reply _ delivery => ⟨fun payload hUser => ?_, ?_⟩⟩
  · dsimp only
    rw [wp_run_bind, wp_run_bind, wp_run_lift]
    refine wp_mono _ (wp_pending_drop (.inr rfl) hOpen _) ?_
    rintro _ _ rfl
    exact ⟨hUser, rfl⟩
  · cases hCode : check reply.code with
    | ok value => exact ⟨rfl, rfl⟩
    | error error =>
        have hStarted := operationNotStarted_check hCode
        simp only [pure_bind, hStarted]
        exact ⟨rfl, rfl⟩

/-- Leaving the applications stopped makes no call. -/
theorem wp_leaveStopped {outcome : OperationOutcome} {s : Monitor} :
    recoveryContract.wp (RestartPending.mk (some core) (some outcome)).leaveStopped.run
      (fun result s' => ∃ completion, result = .ok completion ∧ completion.core = core ∧ s' = s) s :=
  ⟨_, rfl, rfl, rfl⟩

/-! ### Beginning -/

/-- A start that succeeds opens its session; one that fails leaves none open. -/
theorem wp_start : recoveryContract.wp SessionCore.start
    (fun result s => match result with
      | .ok core => core.handle.ended = false ∧ s = ⟨some core.handle.raw, .registering⟩
      | .error _ => s = ⟨none, .registering⟩) ⟨none, .registering⟩ := by
  apply SessionCore.wp_start rfl
  · intro reply key hCode _
    exact ⟨rfl, by simp [recoveryContract, hCode]⟩
  · intro reply hCode _
    simp [recoveryContract, hCode]
  · intro reply error hCode _
    simp [recoveryContract, hCode]

/-- A join that succeeds opens its session, with the key that it was given. -/
theorem wp_join (key : SessionKey) : recoveryContract.wp (SessionCore.join key).run
    (fun result s => match result with
      | .ok core => core.handle.ended = false ∧ core.key = key ∧
          s = ⟨some core.handle.raw, .registering⟩
      | .error _ => s = ⟨none, .registering⟩) ⟨none, .registering⟩ := by
  apply SessionCore.wp_join rfl
  · intro reply hCode _
    exact ⟨rfl, rfl, by simp [recoveryContract, hCode]⟩
  · intro reply error hCode _
    simp [recoveryContract, hCode]

end

/-! ### Operations -/

def Call.BeforeShutdown (c : Call) : Prop :=
  c.Registers ∨ c.Reports ∨ c.ChangesFilter ∨ c.ListsFilters

/-- While resources are registered, every call but the four that move the
session on is allowed and changes nothing. -/
theorem recoveryContract_registering (live : Option UInt32) :
    recoveryContract.Ignores ⟨live, .registering⟩ Call.BeforeShutdown := by
  intro c h
  cases c <;> first
    | exact ⟨trivial, fun _ _ => rfl⟩
    | exact ⟨rfl, fun _ _ => rfl⟩
    | simp [Call.BeforeShutdown, Call.Registers, Call.Reports, Call.ChangesFilter,
        Call.ListsFilters] at h

/-- Reports do not move the monitor. -/
theorem recoveryContract_reports (s : Monitor) : recoveryContract.Ignores s Call.Reports := by
  intro c h
  cases c <;> first | exact ⟨trivial, fun _ _ => rfl⟩ | exact h.elim

/-- An operation that borrows its value leaves the monitor where it was. -/
theorem wp_borrowing {α : Type} {P : Call → Prop} {value : Value} {method : CrateM α}
    {output : Except Error α → Output} {s : Monitor} (hMethod : Makes P method.run)
    (hP : recoveryContract.Ignores s P)
    (hFits : value.Fits s) :
    recoveryContract.wp (borrowing value method output) (fun result s' => result.1.Fits s') s := by
  refine (wp_bind _ _ _ _ _).mpr (wp_mono _ (wp_of_makes _ hMethod hP) ?_)
  rintro _ _ rfl
  exact hFits

/-- A borrowing operation leaves the monitor where it was, also when it unwinds. -/
theorem wp_borrowingUnwind {α : Type} {P : Call → Prop} {value : Value}
    {method : UnwindM (Except Error α)} {output : Except Error α → Output} {s : Monitor}
    (hMethod : Makes P method.run)
    (hP : recoveryContract.Ignores s P)
    (hFits : value.Fits s) :
    recoveryContract.wp (borrowingUnwind value method output)
      (fun result s' => result.1.Fits s') s := by
  refine (wp_bind _ _ _ _ _).mpr (wp_mono _ (wp_of_makes _ hMethod hP) ?_)
  rintro (payload | result) _ rfl
  · exact hFits
  · exact hFits

/-- A consuming method, with what it returns and what it unwinds with. -/
theorem wp_consuming {α State : Type} {C : Contract Call.Response State} {method : UnwindM α}
    {next : α → Value × Output} {Q : Value × Output → State → Prop} {s : State}
    (hMethod : C.wp method.run (fun result => Q (match result with
      | .ok result => next result
      | .error payload => (.gone, .panicked payload))) s) :
    C.wp (consuming method next) Q s := by
  refine (wp_bind _ _ _ _ _).mpr (wp_mono _ hMethod ?_)
  rintro (payload | result) s' h <;> exact h

/-- Every operation of a session fits the monitor marked with it. -/
theorem wp_performSession {session : RestartSession} {op : Op} {p : Native (Value × Output)}
    (hOpen : session.core.handle.ended = false) (hOp : performSession session op = some p) :
    recoveryContract.wp p (fun result s => result.1.Fits s)
      (Monitor.mark ⟨some session.core.handle.raw, .registering⟩ op) := by
  have hFits : (Value.session session).Fits ⟨some session.core.handle.raw, .registering⟩ :=
    .session hOpen
  have hIgnores := recoveryContract_registering (some session.core.handle.raw)
  have hRegister (resources : ResourceBatch) :
      Makes Call.BeforeShutdown (session.core.registerResources resources).run :=
    (session.core.registerResources_makes resources).mono fun _ => Or.inl
  have hShutdown (options : ShutdownOptions) : recoveryContract.wp
      (consuming (session.shutdownWithOptions options) fun pending => (.pending pending, .state))
      (fun result s => result.1.Fits s) ⟨some session.core.handle.raw, .registering⟩ := by
    refine wp_consuming (wp_mono _ (wp_shutdownWithOptions options) ?_)
    rintro _ _ ⟨outcome, rfl, rfl⟩
    exact .pending hOpen
  cases op <;> simp only [performSession, reduceCtorEq, Option.some.injEq] at hOp <;> subst hOp
  case registerResources => exact wp_borrowing (hRegister _) hIgnores hFits
  case registerFiles => exact wp_borrowing (hRegister _) hIgnores hFits
  case registerProcesses => exact wp_borrowing (hRegister _) hIgnores hFits
  case registerServices => exact wp_borrowing (hRegister _) hIgnores hFits
  case affectedApplications =>
    exact wp_borrowing session.core.affectedApplications_makes (recoveryContract_reports _) hFits
  case setFilter target action =>
    exact wp_borrowingUnwind ((session.setFilter_makes target action).mono fun _ h => .inr (.inr (.inl h)))
      hIgnores hFits
  case removeFilter target =>
    exact wp_borrowingUnwind ((session.removeFilter_makes target).mono fun _ h => .inr (.inr (.inl h)))
      hIgnores hFits
  case filters =>
    exact wp_borrowing (session.filters_makes.mono fun _ h => .inr (.inr (.inr h))) hIgnores hFits
  case shutdown => exact hShutdown _
  case shutdownWithOptions options => exact hShutdown options
  case shutdownWithProgress options callback =>
    refine wp_consuming (wp_mono _ (wp_shutdownWithProgress hOpen options callback) ?_)
    rintro (payload | (error | pending)) s hResult
    · obtain ⟨-, rfl⟩ := hResult
      exact .gone
    · obtain ⟨rfl, rfl⟩ := hResult
      exact .shutdownNotStarted hOpen
    · obtain ⟨⟨outcome, rfl⟩, rfl⟩ := hResult
      exact .pending hOpen
  case endSession =>
    refine (wp_bind _ _ _ _ _).mpr (wp_mono _ (wp_core_end (by decide) hOpen) ?_)
    rintro _ _ rfl
    exact .gone

/-- Every operation of a joined session. -/
theorem wp_performJoined {session : JoinedSession} {op : Op} {p : Native (Value × Output)}
    (hOpen : session.core.handle.ended = false) (hOp : performJoined session op = some p) :
    recoveryContract.wp p (fun result s => result.1.Fits s)
      (Monitor.mark ⟨some session.core.handle.raw, .registering⟩ op) := by
  have hFits : (Value.joined session).Fits ⟨some session.core.handle.raw, .registering⟩ :=
    .joined hOpen
  have hIgnores := recoveryContract_registering (some session.core.handle.raw)
  have hRegister (resources : ResourceBatch) :
      Makes Call.BeforeShutdown (session.core.registerResources resources).run :=
    (session.core.registerResources_makes resources).mono fun _ => Or.inl
  cases op <;> simp only [performJoined, reduceCtorEq, Option.some.injEq] at hOp <;> subst hOp
  case registerResources => exact wp_borrowing (hRegister _) hIgnores hFits
  case registerFiles => exact wp_borrowing (hRegister _) hIgnores hFits
  case registerProcesses => exact wp_borrowing (hRegister _) hIgnores hFits
  case registerServices => exact wp_borrowing (hRegister _) hIgnores hFits
  case endSession =>
    refine (wp_bind _ _ _ _ _).mpr (wp_mono _ (wp_core_end (by decide) hOpen) ?_)
    rintro _ _ rfl
    exact .gone

/-- Every operation before the restart: each way out meets the obligation or keeps it. -/
theorem wp_performPending {core : SessionCore} {outcome : OperationOutcome} {op : Op}
    {p : Native (Value × Output)} (hOpen : core.handle.ended = false)
    (hOp : performPending ⟨some core, some outcome⟩ op = some p) :
    recoveryContract.wp p (fun result s => result.1.Fits s)
      (Monitor.mark ⟨some core.handle.raw, .armed⟩ op) := by
  cases op <;> simp only [performPending, reduceCtorEq, Option.some.injEq] at hOp <;> subst hOp
  case shutdownOutcome => exact .pending hOpen
  case restart =>
    refine wp_consuming (wp_mono _ wp_restart ?_)
    rintro _ _ ⟨completion, rfl, rfl, rfl⟩
    exact .completion hOpen (.inl rfl)
  case restartWithProgress callback =>
    refine wp_consuming (wp_mono _ (wp_restartWithProgress hOpen callback) ?_)
    rintro (payload | (error | completion)) s hResult
    · obtain ⟨-, rfl⟩ := hResult
      exact .gone
    · obtain ⟨rfl, rfl⟩ := hResult
      exact .restartNotStarted hOpen
    · obtain ⟨rfl, rfl⟩ := hResult
      exact .completion hOpen (.inl rfl)
  case leaveStopped =>
    refine wp_consuming (wp_mono _ wp_leaveStopped ?_)
    rintro _ _ ⟨completion, rfl, rfl, rfl⟩
    exact .completion hOpen (.inr rfl)

/-- Every operation after the recovery. -/
theorem wp_performCompletion {completion : RecoveryCompletion} {op : Op}
    {p : Native (Value × Output)} {phase : Phase} (hOpen : completion.core.handle.ended = false)
    (hMet : phase = .recovered ∨ phase = .left) (hOp : performCompletion completion op = some p) :
    recoveryContract.wp p (fun result s => result.1.Fits s)
      (Monitor.mark ⟨some completion.core.handle.raw, phase⟩ op) := by
  have hFits : (Value.completion completion).Fits ⟨some completion.core.handle.raw, phase⟩ :=
    .completion hOpen hMet
  have hArmed : phase ≠ .armed := by rcases hMet with rfl | rfl <;> decide
  cases op <;> simp only [performCompletion, reduceCtorEq, Option.some.injEq] at hOp <;> subst hOp
  case outcome => exact hFits
  case affectedApplications =>
    exact wp_borrowing completion.core.affectedApplications_makes (recoveryContract_reports _) hFits
  case endSession =>
    refine (wp_bind _ _ _ _ _).mpr ((wp_bind _ _ _ _ _).mpr (wp_mono _ (wp_core_end hArmed hOpen) ?_))
    rintro _ _ rfl
    exact .gone

/-- Dropping whatever an owner holds ends the session, after a restart where
one is owed. -/
theorem wp_value_drop {value : Value} {s : Monitor} (hFits : value.Fits s) :
    recoveryContract.wp value.drop (fun _ s' => s'.live = none) s := by
  have hLive {phase : Phase} : ∀ (_ : Unit) s, s = (⟨none, phase⟩ : Monitor) → s.live = none := by
    rintro _ _ rfl
    rfl
  cases hFits with
  | session hOpen => exact wp_mono _ (wp_open_drop (by decide) hOpen) hLive
  | joined hOpen => exact wp_mono _ (wp_open_drop (by decide) hOpen) hLive
  | @pending core outcome hOpen => exact wp_mono _ (wp_pending_drop (.inl rfl) hOpen outcome) hLive
  | completion hOpen hMet =>
      rcases hMet with rfl | rfl
      · exact wp_mono _ (wp_open_drop (by decide) hOpen) hLive
      · exact wp_mono _ (wp_open_drop (by decide) hOpen) hLive
  | shutdownNotStarted hOpen => exact wp_mono _ (wp_open_drop (by decide) hOpen) hLive
  | @restartNotStarted core outcome error hOpen =>
      exact wp_mono _ (wp_pending_drop (.inl rfl) hOpen outcome) hLive
  | gone => rfl

/-- Every operation keeps what its owner holds in agreement with the monitor. -/
theorem wp_perform {value : Value} {op : Op} {p : Native (Value × Output)} {s : Monitor}
    (hFits : value.Fits s) (hOp : perform value op = some p) :
    recoveryContract.wp p (fun result s' => result.1.Fits s') (s.mark op) := by
  by_cases hDrop : op = .dropValue
  · subst hDrop
    have hGone : recoveryContract.wp (do value.drop; return ((.gone, .done (.ok ())) : Value × Output))
        (fun result s' => result.1.Fits s') s := by
      refine (wp_bind _ _ _ _ _).mpr (wp_mono _ (wp_value_drop hFits) ?_)
      rintro _ ⟨live, phase⟩ rfl
      exact .gone
    cases hFits <;> cases hOp <;> exact hGone
  cases hFits with
  | session hOpen => exact wp_performSession hOpen (perform_session hDrop ▸ hOp)
  | joined hOpen => exact wp_performJoined hOpen (perform_joined hDrop ▸ hOp)
  | pending hOpen => exact wp_performPending hOpen (perform_pending hDrop ▸ hOp)
  | completion hOpen hMet => exact wp_performCompletion hOpen hMet (perform_completion hDrop ▸ hOp)
  | shutdownNotStarted hOpen =>
      cases op <;> cases hOp
      · exact .session hOpen
      · exact absurd rfl hDrop
  | restartNotStarted hOpen =>
      cases op <;> cases hOp
      · exact .pending hOpen
      · exact absurd rfl hDrop
  | gone => cases op <;> cases hOp

end RestartManager
