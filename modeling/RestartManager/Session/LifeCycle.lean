import RestartManager.Session.RetainedOutcomes
import RestartManager.Session.SessionKeys

/-! The life of a primary session as Windows sees it: when it begins, is shut
down, restarted and ended. The words of this language are the complete lives,
and each of them is lived. -/
namespace RestartManager

open Interaction Contract Program

/-- The calls that begin a session, move it on or end it. -/
def Call.steers : Call → Bool
  | .rmStartSession | .rmShutdown .. | .rmRestart .. | .rmEndSession _ => true
  | _ => false

namespace LifeCycle

variable [Platform]

/-- Windows began a session, and the buffer it filled holds this key. -/
structure Opened (reply : StartReply) (key : SessionKey) : Prop where
  code : reply.code = ERROR_SUCCESS
  keyed : reply.key.toList = (WideString.new key.asStr).buffer

/-! ### The language -/

/-- A session is ended by one call, or by a second one after the first failed. -/
inductive End (raw : UInt32) : Trace → Prop
  | once (code : UInt32) : End raw [⟨.rmEndSession raw, code⟩]
  | retried {code : UInt32} (failed : code ≠ ERROR_SUCCESS) (again : UInt32) :
      End raw [⟨.rmEndSession raw, code⟩, ⟨.rmEndSession raw, again⟩]

/-- Between the shutdown and the end there is a restart, or the applications
are left stopped. -/
inductive Recovery (raw : UInt32) : Trace → Prop
  | left : Recovery raw []
  | restarted (trampoline : Bool) (reply : OperationReply) :
      Recovery raw [⟨.rmRestart raw 0 trampoline, reply⟩]

/-- A complete life. Where the callback of a restart was called, it may have
panicked, and then the session is restarted again and ended once. -/
inductive Word : Trace → Prop
  | failed {reply : StartReply} (code : reply.code ≠ ERROR_SUCCESS) : Word [⟨.rmStartSession, reply⟩]
  | malformed {reply : StartReply} (code : reply.code = ERROR_SUCCESS)
      (unkeyed : ∀ key, ¬Opened reply key) (ended : UInt32) :
      Word [⟨.rmStartSession, reply⟩, ⟨.rmEndSession reply.raw, ended⟩]
  | unused {reply : StartReply} {key : SessionKey} {ending : Trace} (opened : Opened reply key)
      (ended : End reply.raw ending) : Word (⟨.rmStartSession, reply⟩ :: ending)
  | used {reply : StartReply} {key : SessionKey} {recovery ending : Trace} (opened : Opened reply key)
      (options : ShutdownOptions) (trampoline : Bool) (stopped : OperationReply)
      (recovered : Recovery reply.raw recovery) (ended : End reply.raw ending) :
      Word (⟨.rmStartSession, reply⟩ :: ⟨.rmShutdown reply.raw options.nativeFlags trampoline, stopped⟩ ::
        (recovery ++ ending))
  | unwound {reply : StartReply} {key : SessionKey} (opened : Opened reply key)
      (options : ShutdownOptions) (trampoline : Bool) (stopped restarted again : OperationReply)
      (called : deliveries none restarted.reports ≠ []) (ended : UInt32) :
      Word [⟨.rmStartSession, reply⟩, ⟨.rmShutdown reply.raw options.nativeFlags trampoline, stopped⟩,
        ⟨.rmRestart reply.raw 0 true, restarted⟩, ⟨.rmRestart reply.raw 0 false, again⟩,
        ⟨.rmEndSession reply.raw, ended⟩]

/-- What Windows is asked about the life of the session. -/
def steering (trace : Trace) : Trace := trace.filter (·.1.steers)

theorem steering_append (first second : Trace) :
    steering (first ++ second) = steering first ++ steering second := List.filter_append ..

omit [Platform] in
/-- The calls before a shutdown steer nothing. -/
theorem steers_of_before {c : Call} (h : c.BeforeShutdown) : c.steers = false := by
  cases c <;> first
    | rfl
    | simp [Call.BeforeShutdown, Call.Registers, Call.Reports, Call.ChangesFilter, Call.ListsFilters] at h

theorem steering_eq_nil {trace : Trace} (h : ∀ event ∈ trace, event.1.steers = false) :
    steering trace = [] := by
  rw [steering, List.filter_eq_nil_iff]
  intro event hMem
  simp [h event hMem]

/-- The reports steer nothing either. -/
theorem steering_delivered (callback : Callback) (values : List Progress) :
    steering (values.map callback.delivered) = [] := by
  apply steering_eq_nil
  intro event hMem
  obtain ⟨progress, -, rfl⟩ := List.mem_map.mp hMem
  cases callback <;> rfl

/-- Every call of an end steers. -/
theorem End.steering {raw : UInt32} {trace : Trace} (h : End raw trace) : steering trace = trace := by
  cases h <;> rfl

/-! ### Every life is a word -/

/-- What the owner holds, after what Windows was asked. -/
inductive Living : Value → Trace → Prop
  | session {reply : StartReply} {key : SessionKey} (opened : Opened reply key) {value : Value}
      (unshut : value = .session ⟨⟨⟨reply.raw, false⟩, key⟩⟩ ∨
        ∃ error, value = .shutdownNotStarted ⟨⟨⟨⟨reply.raw, false⟩, key⟩⟩, error⟩) :
      Living value [⟨.rmStartSession, reply⟩]
  | pending {reply : StartReply} {key : SessionKey} (opened : Opened reply key)
      {options : ShutdownOptions} {trampoline : Bool} {stopped : OperationReply}
      {outcome : OperationOutcome} {value : Value}
      (armed : value = .pending ⟨some ⟨⟨reply.raw, false⟩, key⟩, some outcome⟩ ∨
        ∃ error, value = .restartNotStarted ⟨⟨some ⟨⟨reply.raw, false⟩, key⟩, some outcome⟩, error⟩) :
      Living value [⟨.rmStartSession, reply⟩,
        ⟨.rmShutdown reply.raw options.nativeFlags trampoline, stopped⟩]
  | completion {reply : StartReply} {key : SessionKey} (opened : Opened reply key)
      {options : ShutdownOptions} {trampoline : Bool} {stopped : OperationReply} {recovery : Trace}
      (recovered : Recovery reply.raw recovery) {outcome : RecoveryOutcome} :
      Living (.completion ⟨⟨⟨reply.raw, false⟩, key⟩, outcome⟩) (⟨.rmStartSession, reply⟩ ::
        ⟨.rmShutdown reply.raw options.nativeFlags trampoline, stopped⟩ :: recovery)
  | gone {trace : Trace} (complete : Word trace) : Living .gone trace

section

variable {trace later : Trace} {core : SessionCore}

/-- The drop of an open handle is one attempt to end its session. -/
theorem end_of_drop (hOpen : core.handle.ended = false) (run : core.drop.Exec trace ()) :
    ∃ code, trace = [⟨.rmEndSession core.handle.raw, code⟩] := by
  rcases exec_handle_drop_iff.mp run with ⟨hEnded, -⟩ | ⟨-, hCode⟩
  · rw [hOpen] at hEnded
    cases hEnded
  · exact hCode

/-- The end of a session that is open: one call, and the drop with the flag it leaves. -/
theorem core_end_eq (hOpen : core.handle.ended = false) : core.end =
    .call (.rmEndSession core.handle.raw) fun code =>
      SessionHandle.drop { core.handle with ended := (check code).isOk } >>= fun _ =>
        .done ((check code).mapError (mapOperationError · .end)) := by
  unfold SessionCore.end SessionHandle.end
  rw [hOpen]
  rfl

/-- An explicit end that fails is followed by the attempt of the drop. -/
theorem exec_end_iff {result : Except Error Unit} (hOpen : core.handle.ended = false) :
    core.end.Exec trace result ↔
      (trace = [⟨.rmEndSession core.handle.raw, ERROR_SUCCESS⟩] ∧ result = .ok ()) ∨
      ∃ code again, code ≠ ERROR_SUCCESS ∧
        trace = [⟨.rmEndSession core.handle.raw, code⟩, ⟨.rmEndSession core.handle.raw, again⟩] ∧
        result = .error (mapOperationError (.os code) .end) := by
  rw [core_end_eq hOpen, exec_call_iff]
  constructor
  · rintro ⟨code, rest, rfl, hRest⟩
    obtain ⟨first, second, ⟨⟩, rfl, hDrop, hReturn⟩ := exec_bind_iff.mp hRest
    obtain ⟨rfl, rfl⟩ := exec_done_iff.mp hReturn
    rw [List.append_nil]
    by_cases hCode : code = ERROR_SUCCESS
    · rcases exec_handle_drop_iff.mp hDrop with ⟨-, rfl⟩ | ⟨hEnded, -⟩
      · exact .inl ⟨by rw [hCode], by rw [check, if_pos hCode]; rfl⟩
      · simp [check, hCode, Except.isOk, Except.toBool] at hEnded
    · rcases exec_handle_drop_iff.mp hDrop with ⟨hEnded, -⟩ | ⟨-, again, rfl⟩
      · simp [check, hCode, Except.isOk, Except.toBool] at hEnded
      · exact .inr ⟨code, again, hCode, rfl, by rw [check, if_neg hCode]; rfl⟩
  · rintro (⟨rfl, rfl⟩ | ⟨code, again, hCode, rfl, rfl⟩)
    · exact ⟨ERROR_SUCCESS, [], rfl, .refl _⟩
    · refine ⟨code, _, rfl, ?_⟩
      have hCheck : check code = .error (.os code) := if_neg hCode
      rw [hCheck]
      exact .step (.refl _)

/-- The calls of an end are a word of the grammar, whatever they answer. -/
theorem end_of_exec {result : Except Error Unit} (hOpen : core.handle.ended = false)
    (run : core.end.Exec trace result) : End core.handle.raw trace := by
  rcases (exec_end_iff hOpen).mp run with ⟨rfl, -⟩ | ⟨code, again, hCode, rfl, -⟩
  · exact .once _
  · exact .retried hCode again

/-- The values that a method with progress delivers steer nothing. -/
theorem steering_progress {native : Event} {callback : Callback} {values : List Progress} {rest : Trace}
    (hNative : native.1.steers = true) :
    steering (⟨.installLease, true⟩ :: native :: (values.map callback.delivered ++ rest)) =
      native :: steering rest := by
  have hSplit : (⟨.installLease, true⟩ :: native :: (values.map callback.delivered ++ rest) : Trace) =
      [⟨.installLease, true⟩] ++ [native] ++ values.map callback.delivered ++ rest := by simp
  have hInstall : steering [⟨.installLease, true⟩] = [] := rfl
  have hSelf : steering [native] = [native] := by simp [steering, hNative]
  rw [hSplit, steering_append, steering_append, steering_append, steering_delivered, hInstall, hSelf]
  rfl

/-- A panic releases the lease and steers nothing. -/
theorem steering_panicked {progress : Progress} {payload : Payload} :
    steering (panicked progress payload :: ⟨.releaseLease, ()⟩ :: trace) = steering trace := rfl

/-- A pending value that is dropped is restarted once and ended once. -/
theorem steering_recovery {shutdown : Option OperationOutcome} (hOpen : core.handle.ended = false)
    (run : (RestartPending.mk (some core) shutdown).drop.Exec trace ()) :
    ∃ reply code, steering trace =
      [⟨.rmRestart core.handle.raw 0 false, reply⟩, ⟨.rmEndSession core.handle.raw, code⟩] := by
  obtain ⟨reply, rest, rfl, hDrop⟩ := exec_pending_drop_iff.mp run
  obtain ⟨code, rfl⟩ := end_of_drop hOpen hDrop
  exact ⟨reply, code, rfl⟩

variable {value value' : Value} {op : Op} {output : Output} {m : Monitor} {p : Native (Value × Output)}

/-- What its owner drops is the end of a life. -/
theorem Living.drop (living : Living value trace) (hOwned : value ≠ .gone)
    (run : value.drop.Exec later ()) : Word (trace ++ steering later) := by
  cases living with
  | @session reply key opened _ unshut =>
      have hCore : (SessionCore.mk ⟨reply.raw, false⟩ key).drop.Exec later () := by
        rcases unshut with rfl | ⟨error, rfl⟩ <;> exact run
      obtain ⟨code, rfl⟩ := end_of_drop rfl hCore
      exact .unused opened (.once code)
  | @pending reply key opened options trampoline stopped outcome _ armed =>
      have hPending : (RestartPending.mk (some ⟨⟨reply.raw, false⟩, key⟩) (some outcome)).drop.Exec
          later () := by
        rcases armed with rfl | ⟨error, rfl⟩ <;> exact run
      obtain ⟨restarted, code, hRecovery⟩ := steering_recovery rfl hPending
      have hRestarted : Recovery reply.raw _ := .restarted false restarted
      have hEnd : End reply.raw _ := .once code
      have hWord := Word.used opened options trampoline stopped hRestarted hEnd
      rw [hRecovery]
      exact hWord
  | @completion reply key opened _ _ _ _ recovered =>
      have hCore : (SessionCore.mk ⟨reply.raw, false⟩ key).drop.Exec later () := run
      obtain ⟨code, rfl⟩ := end_of_drop rfl hCore
      exact .used opened _ _ _ recovered (.once code)
  | gone => exact absurd rfl hOwned

/-- Dropping a value runs its destructor, and nothing is left. -/
theorem exec_dropValue (hOp : perform value .dropValue = some p) (run : p.Exec later (value', output)) :
    value ≠ .gone ∧ value' = .gone ∧ value.drop.Exec later () := by
  have hProgram : value ≠ .gone ∧ p = (do
      value.drop
      return (.gone, .done (.ok ()))) := by
    cases value <;> cases hOp <;> exact ⟨nofun, rfl⟩
  obtain ⟨hOwned, rfl⟩ := hProgram
  obtain ⟨first, second, ⟨⟩, rfl, hRun, hReturn⟩ := exec_bind_iff.mp run
  obtain ⟨rfl, hResult⟩ := exec_done_iff.mp hReturn
  rw [List.append_nil]
  exact ⟨hOwned, (Prod.mk.inj hResult).1, hRun⟩

section Held

variable {held : SessionCore} {session : RestartSession} {pending : RestartPending} {outcome : OperationOutcome}
  {completion : RecoveryCompletion} {error : Error}

/-- A session was opened, and nothing else was asked. -/
def Begun (session : RestartSession) (trace : Trace) : Prop :=
  ∃ (reply : StartReply) (key : SessionKey), Opened reply key ∧ session = ⟨⟨⟨reply.raw, false⟩, key⟩⟩ ∧
    trace = [⟨.rmStartSession, reply⟩]

/-- A session was opened and shut down. -/
def Shut (core : SessionCore) (trace : Trace) : Prop :=
  ∃ (reply : StartReply) (key : SessionKey) (options : ShutdownOptions) (trampoline : Bool)
    (stopped : OperationReply), Opened reply key ∧ core = ⟨⟨reply.raw, false⟩, key⟩ ∧
      trace = [⟨.rmStartSession, reply⟩, ⟨.rmShutdown reply.raw options.nativeFlags trampoline, stopped⟩]

/-- A session that is still there has only begun. -/
theorem Living.begun (living : Living (.session session) trace) : Begun session trace := by
  cases living with
  | session opened unshut => exact ⟨_, _, opened, by simpa using unshut, rfl⟩
  | pending opened armed => simp at armed

/-- A refused shutdown leaves the session as it was. -/
theorem Living.refused (living : Living (.shutdownNotStarted ⟨session, error⟩) trace) :
    Begun session trace := by
  cases living with
  | session opened unshut => exact ⟨_, _, opened, by simpa using unshut, rfl⟩
  | pending opened armed => simp at armed

/-- A value before its restart has been shut down. -/
theorem Living.shut (living : Living (.pending ⟨some held, some outcome⟩) trace) : Shut held trace := by
  cases living with
  | session opened unshut => simp at unshut
  | pending opened armed =>
      obtain ⟨rfl, -⟩ : held = _ ∧ outcome = _ := by simpa using armed
      exact ⟨_, _, _, _, _, opened, rfl, rfl⟩

/-- A refused restart leaves it so. -/
theorem Living.restartRefused (living : Living (.restartNotStarted ⟨pending, error⟩) trace) :
    Living (.pending pending) trace := by
  cases living with
  | session opened unshut => simp at unshut
  | pending opened armed =>
      obtain rfl : pending = _ := by simpa using armed
      exact .pending opened (.inl rfl)

/-- What an explicit end of the session asks is the end of a word. -/
theorem Living.ended {output : Except Error Unit} (living : Living (.session session) trace)
    (run : session.core.end.Exec later output) : Word (trace ++ steering later) := by
  obtain ⟨reply, key, opened, rfl, rfl⟩ := living.begun
  have hEnd := end_of_exec rfl run
  rw [hEnd.steering]
  exact .unused opened hEnd

/-- The end of a completed recovery closes a word of the grammar. -/
theorem Living.completed {output : Except Error Unit} (living : Living (.completion completion) trace)
    (run : completion.core.end.Exec later output) : Word (trace ++ steering later) := by
  cases living with
  | session opened unshut => simp at unshut
  | pending opened armed => simp at armed
  | completion opened recovered =>
      have hEnd := end_of_exec rfl run
      rw [hEnd.steering]
      exact .used opened _ _ _ recovered hEnd

/-- A shutdown with progress starts nothing, shuts the session down, or has
also recovered it when its callback panics. -/
theorem Begun.shutdownWithProgress {options : ShutdownOptions} {callback : Callback}
    {result : Except Payload (Except (OperationNotStarted RestartSession) RestartPending)}
    (begun : Begun session trace)
    (run : ProgressRun callback
      (fun reply => ⟨.rmShutdown session.core.handle.raw options.nativeFlags true, reply⟩)
      (.error ⟨session, callbackInUseError⟩)
      (fun reply => .ok ⟨some session.core, some (reply.outcome .shutdown true)⟩)
      (RestartPending.new session.core).drop later result) :
    Living (match result with
      | .ok (.ok pending) => .pending pending
      | .ok (.error error) => .shutdownNotStarted error
      | .error _ => .gone) (trace ++ steering later) := by
  obtain ⟨reply, key, opened, rfl, rfl⟩ := begun
  cases run with
  | refused => exact .session opened (.inr ⟨_, rfl⟩)
  | completed =>
      rw [steering_progress rfl]
      exact .pending opened (.inl rfl)
  | panicked reached user dropped =>
      obtain ⟨restarted, code, hRecovery⟩ := steering_recovery rfl dropped
      rw [steering_progress rfl, steering_panicked, hRecovery]
      exact .gone (.used opened options true _ (.restarted false restarted) (.once code))

/-- A restart with progress: refused, answered, or given up by a panic. -/
theorem Shut.restartWithProgress {callback : Callback}
    {result : Except Payload (Except (OperationNotStarted RestartPending) RecoveryCompletion)}
    (shut : Shut held trace)
    (run : ProgressRun callback (fun reply => ⟨.rmRestart held.handle.raw 0 true, reply⟩)
      (.error ⟨⟨some held, some outcome⟩, callbackInUseError⟩)
      (fun reply => .ok ⟨held, ⟨outcome, some (reply.outcome .restart true)⟩⟩)
      (RestartPending.mk (some held) (some outcome)).drop later result) :
    Living (match result with
      | .ok (.ok completion) => .completion completion
      | .ok (.error error) => .restartNotStarted error
      | .error _ => .gone) (trace ++ steering later) := by
  obtain ⟨reply, key, options, trampoline, stopped, opened, rfl, rfl⟩ := shut
  cases run with
  | refused => exact .pending opened (.inr ⟨_, rfl⟩)
  | completed =>
      rw [steering_progress rfl]
      exact .completion opened (.restarted true _)
  | panicked reached user dropped =>
      obtain ⟨again, code, hRecovery⟩ := steering_recovery rfl dropped
      rw [steering_progress rfl, steering_panicked, hRecovery]
      exact .gone (.unwound opened _ _ _ _ again (by simp [reached]) code)

end Held

/-- What an operation asks of the life of the session goes on from what was asked. -/
theorem Living.step (living : Living value trace) (hFits : value.Fits m) (hOp : perform value op = some p)
    (hExec : p.Exec later (value', output)) : Living value' (trace ++ steering later) := by
  by_cases hDrop : op = .dropValue
  · subst hDrop
    obtain ⟨hOwned, rfl, run⟩ := exec_dropValue hOp hExec
    exact .gone (living.drop hOwned run)
  have hSilent (h : steering later = []) (hLiving : Living value' trace) :
      Living value' (trace ++ steering later) := by
    rw [h, List.append_nil]
    exact hLiving
  have performed := performed_of_exec hFits hOp hExec
  cases performed with
  | borrowed stays calls returned =>
      exact hSilent (steering_eq_nil fun event hMem => steers_of_before (calls event hMem)) living
  | shutdown plain =>
      obtain ⟨reply, key, opened, rfl, rfl⟩ := living.begun
      exact .pending opened (.inl rfl)
  | @shutdownWithProgress _ _ _ _ result run =>
      have hNext := living.begun.shutdownWithProgress run
      rcases result with payload | error | pending <;> exact hNext
  | shutdownOutcome | outcome => exact hSilent rfl living
  | restart =>
      obtain ⟨reply, key, options, trampoline, stopped, opened, rfl, rfl⟩ := living.shut
      exact .completion opened (.restarted false _)
  | @restartWithProgress _ _ _ _ result run =>
      have hNext := living.shut.restartWithProgress run
      rcases result with payload | error | completion <;> exact hNext
  | leaveStopped =>
      obtain ⟨reply, key, options, trampoline, stopped, opened, rfl, rfl⟩ := living.shut
      exact .completion opened .left
  | ended owned calls =>
      rcases owned with rfl | rfl
      · cases hOp
        obtain ⟨first, second, result, rfl, hEnd, hReturn⟩ := exec_bind_iff.mp hExec
        obtain ⟨rfl, -⟩ := exec_done_iff.mp hReturn
        rw [List.append_nil]
        exact .gone (living.ended hEnd)
      · cases living with
        | session opened unshut => simp at unshut
        | pending opened armed => simp at armed
  | completed calls =>
      cases hOp
      obtain ⟨first, second, result, rfl, hEnded, hReturn⟩ := exec_bind_iff.mp hExec
      obtain ⟨rfl, -⟩ := exec_done_iff.mp hReturn
      obtain ⟨calls, rest, result, rfl, hEnd, hMapped⟩ := exec_bind_iff.mp hEnded
      obtain ⟨rfl, -⟩ := exec_done_iff.mp hMapped
      rw [List.append_nil, List.append_nil]
      exact .gone (living.completed hEnd)
  | refusal =>
      obtain ⟨reply, key, opened, rfl, rfl⟩ := living.refused
      exact .session opened (.inl rfl)
  | restartRefusal => exact hSilent rfl living.restartRefused
  | dropped => exact absurd rfl hDrop
  | abandoned => exact absurd rfl hDrop

/-- Every life has asked for what its owner holds. -/
theorem living_of_life {history : List Entry} (life : Life history value) :
    Living value (steering (events history)) := by
  induction life with
  | started run =>
      obtain ⟨started, hStart, hSession⟩ := exec_map_iff.mp run
      obtain ⟨reply, hStarted⟩ := exec_recording hStart wp_started
      rw [events_calls]
      cases hStarted with
      | opened code keyed =>
          cases hSession
          exact .session ⟨code, keyed⟩ (.inl rfl)
      | malformed | failed => cases hSession
  | failed run =>
      obtain ⟨started, hStart, hError⟩ := exec_map_iff.mp run
      obtain ⟨reply, hStarted⟩ := exec_recording hStart wp_started
      rw [events_calls]
      cases hStarted with
      | opened => cases hError
      | malformed code unkeyed => exact .gone (.malformed code (fun key h => unkeyed key h.keyed) _)
      | failed code => exact .gone (.failed code)
  | perform life method run ih =>
      rw [events_perform, steering_append]
      exact ih.step life.fits.2 method run

end

/-! ### Every word is lived -/

section

variable {trace later : Trace} {value value' : Value} {op : Op} {output : Output}
  {p : Native (Value × Output)} {reply : StartReply} {key : SessionKey}

/-- Some life holds this value, and has asked for exactly this. -/
def Lived (value : Value) (trace : Trace) : Prop :=
  ∃ history, Life history value ∧ steering (events history) = trace

/-- A life goes on with the calls of its next operation. -/
theorem Lived.perform (lived : Lived value trace) (hOp : RestartManager.perform value op = some p)
    (run : p.Exec later (value', output)) : Lived value' (trace ++ steering later) := by
  obtain ⟨history, life, rfl⟩ := lived
  refine ⟨_, life.perform hOp run, ?_⟩
  rw [events_perform, steering_append]

/-- Whatever is owned can be dropped. -/
theorem perform_dropValue (hOwned : value ≠ .gone) : RestartManager.perform value .dropValue = some (do
    value.drop
    return (.gone, .done (.ok ()))) := by
  cases value <;> first | rfl | exact absurd rfl hOwned

/-- A life may end by a drop at any time. -/
theorem Lived.dropped (lived : Lived value trace) (hOwned : value ≠ .gone)
    (run : value.drop.Exec later ()) : Lived .gone (trace ++ steering later) := by
  have hDrop : (do
      value.drop
      return (.gone, .done (.ok ())) : Native (Value × Output)).Exec later (.gone, .done (.ok ())) :=
    exec_bind_iff.mpr ⟨_, [], (), (List.append_nil _).symm, run, .refl _⟩
  exact lived.perform (perform_dropValue hOwned) hDrop

/-- A consuming method that returns. -/
theorem exec_consuming_ok {α : Type} {method : UnwindM α} {next : α → Value × Output} {a : α}
    (run : method.run.Exec trace (.ok a)) : (consuming method next).Exec trace (next a) :=
  exec_bind_iff.mpr ⟨trace, [], .ok a, (List.append_nil _).symm, run, .refl _⟩

/-- A consuming method that panics leaves nothing behind. -/
theorem exec_consuming_panicked {α : Type} {method : UnwindM α} {next : α → Value × Output}
    {payload : Payload} (run : method.run.Exec trace (.error payload)) :
    (consuming method next).Exec trace (.gone, .panicked payload) :=
  exec_bind_iff.mpr ⟨trace, [], .error payload, (List.append_nil _).symm, run, .refl _⟩

/-- Whatever Windows answers to a start, there is a run with that answer. -/
theorem exec_new (reply : StartReply) (ended : UInt32) : ∃ trace result,
    RestartSession.new.Exec trace result ∧ Started reply trace (result.map RestartSession.core) ∧
      ∀ raw code, ⟨.rmEndSession raw, code⟩ ∈ trace → code = ended := by
  let answer : (c : Call) → c.Response
    | .rmStartSession => reply
    | .rmEndSession _ => ended
    | c => Classical.choice c.answered
  obtain ⟨trace, result, run, hAnswers⟩ := exists_exec_answered answer RestartSession.new
  obtain ⟨started, hStart, rfl⟩ := exec_map_iff.mp run
  obtain ⟨reply', hStarted⟩ := exec_recording hStart wp_started
  have hReply : reply' = reply := by
    have hFirst : (⟨.rmStartSession, reply'⟩ : Event) ∈ trace := by
      cases hStarted <;> exact List.mem_cons_self
    exact hAnswers _ hFirst
  have hMap : (started.map RestartSession.mk).map RestartSession.core = started := by
    cases started <;> rfl
  refine ⟨trace, _, run, ?_, fun raw code hMem => hAnswers _ hMem⟩
  rw [hMap, ← hReply]
  exact hStarted

omit [Platform] in
/-- A buffer holds one key. -/
theorem Opened.same {key' : SessionKey} (h : Opened reply key) (h' : Opened reply key') : key = key' := by
  have hLength : reply.key.toList.length = 33 := reply.key.length_toList
  have hText := ((key.decodeFixed_asStr hLength).mpr h.keyed).symm.trans
    ((key'.decodeFixed_asStr hLength).mpr h'.keyed)
  have hValue : some key.value = some key'.value := by
    rw [← key.asStr_intoString, ← key'.asStr_intoString, Except.ok.inj hText]
  obtain ⟨digits, valid⟩ := key
  obtain ⟨digits', valid'⟩ := key'
  cases hValue
  rfl

/-- A life in which the session was opened. -/
theorem lived_session (opened : Opened reply key) :
    Lived (.session ⟨⟨⟨reply.raw, false⟩, key⟩⟩) [⟨.rmStartSession, reply⟩] := by
  obtain ⟨trace, result, run, hStarted, -⟩ := exec_new reply 0
  cases result with
  | error error =>
      cases hStarted with
      | malformed code unkeyed => exact absurd opened.keyed (unkeyed key)
      | failed code => exact absurd opened.code code
  | ok session =>
      obtain ⟨core⟩ := session
      generalize hCore : (Except.ok (RestartSession.mk core)).map RestartSession.core = started at hStarted
      cases hStarted with
      | opened code keyed =>
          cases hCore
          obtain rfl := opened.same ⟨code, keyed⟩
          exact ⟨_, .started run, by rw [events_calls]; rfl⟩
      | malformed | failed => cases hCore

/-- One in which it was not, whether the start or its key failed. -/
theorem lived_unopened (reply : StartReply) (ended : UInt32) (unopened : ∀ key, ¬Opened reply key) :
    Lived .gone (⟨.rmStartSession, reply⟩ ::
      if reply.code = ERROR_SUCCESS then [⟨.rmEndSession reply.raw, ended⟩] else []) := by
  obtain ⟨trace, result, run, hStarted, hEnded⟩ := exec_new reply ended
  cases result with
  | error error =>
      refine ⟨_, .failed run, ?_⟩
      rw [events_calls]
      cases hStarted with
      | malformed code unkeyed =>
          rw [hEnded _ _ (List.mem_cons_of_mem _ List.mem_cons_self), if_pos code]
          rfl
      | failed code =>
          rw [if_neg code]
          rfl
  | ok session =>
      obtain ⟨core⟩ := session
      generalize hCore : (Except.ok (RestartSession.mk core)).map RestartSession.core = started at hStarted
      cases hStarted with
      | opened code keyed => exact absurd ⟨code, keyed⟩ (unopened _)
      | malformed | failed => cases hCore

/-- A life in which the applications were shut down. -/
theorem lived_pending (opened : Opened reply key) (options : ShutdownOptions) (trampoline : Bool)
    (stopped : OperationReply) : ∃ outcome,
      Lived (.pending ⟨some ⟨⟨reply.raw, false⟩, key⟩, some outcome⟩) [⟨.rmStartSession, reply⟩,
        ⟨.rmShutdown reply.raw options.nativeFlags trampoline, stopped⟩] := by
  let session : RestartSession := ⟨⟨⟨reply.raw, false⟩, key⟩⟩
  have hLived : Lived (.session session) _ := lived_session opened
  cases trampoline with
  | false =>
      have run : (session.shutdownWithOptions options).run.Exec
          [⟨.rmShutdown reply.raw options.nativeFlags false, stopped⟩]
          (.ok ⟨some session.core, some (stopped.outcome .shutdown false)⟩) := by
        rw [shutdownWithOptions_run]
        exact .step (.refl _)
      exact ⟨_, @Lived.perform _ _ _ _ _ (.shutdownWithOptions options) _ _ hLived rfl
        (exec_consuming_ok run)⟩
  | true =>
      have run : (session.shutdownWithProgress options .watch).run.Exec _ _ :=
        exec_shutdownWithProgress_iff.mpr (@ProgressRun.completed _ _ _ _ _ _ _ stopped)
      have hNext := @Lived.perform _ _ _ _ _ (.shutdownWithProgress options .watch) _ _ hLived rfl
        (exec_consuming_ok run)
      rw [steering_progress rfl] at hNext
      exact ⟨_, hNext⟩

/-- A life in which the recovery was completed, with or without a restart. -/
theorem lived_completion (opened : Opened reply key) (options : ShutdownOptions) (trampoline : Bool)
    (stopped : OperationReply) {recovery : Trace} (recovered : Recovery reply.raw recovery) :
    ∃ outcome, Lived (.completion ⟨⟨⟨reply.raw, false⟩, key⟩, outcome⟩) (⟨.rmStartSession, reply⟩ ::
      ⟨.rmShutdown reply.raw options.nativeFlags trampoline, stopped⟩ :: recovery) := by
  obtain ⟨outcome, hLived⟩ := lived_pending opened options trampoline stopped
  let core : SessionCore := ⟨⟨reply.raw, false⟩, key⟩
  cases recovered with
  | left =>
      have run : (RestartPending.mk (some core) (some outcome)).leaveStopped.run.Exec []
          (.ok ⟨core, ⟨outcome, none⟩⟩) := .refl _
      exact ⟨_, @Lived.perform _ _ _ _ _ .leaveStopped _ _ hLived rfl (exec_consuming_ok run)⟩
  | restarted again restarted =>
      cases again with
      | false =>
          have run : (RestartPending.mk (some core) (some outcome)).restart.run.Exec
              [⟨.rmRestart reply.raw 0 false, restarted⟩]
              (.ok ⟨core, ⟨outcome, some (restarted.outcome .restart false)⟩⟩) := by
            rw [restart_run]
            exact .step (.refl _)
          exact ⟨_, @Lived.perform _ _ _ _ _ .restart _ _ hLived rfl (exec_consuming_ok run)⟩
      | true =>
          have run : ((RestartPending.mk (some core) (some outcome)).restartWithProgress
              .watch).run.Exec _ _ :=
            exec_restartWithProgress_iff.mpr (@ProgressRun.completed _ _ _ _ _ _ _ restarted)
          have hNext := @Lived.perform _ _ _ _ _ (.restartWithProgress .watch) _ _ hLived rfl
            (exec_consuming_ok run)
          rw [steering_progress rfl] at hNext
          exact ⟨_, hNext⟩

/-- A value that holds an open core can be ended in each way: by its drop, or
by an explicit end that fails. -/
theorem Lived.ended {core : SessionCore} {ending : Trace} (lived : Lived value trace)
    (owned : value = .session ⟨core⟩ ∨ ∃ outcome, value = .completion ⟨core, outcome⟩)
    (hOpen : core.handle.ended = false) (ended : End core.handle.raw ending) :
    Lived .gone (trace ++ ending) := by
  rw [← ended.steering]
  cases ended with
  | once code =>
      have run : core.drop.Exec [⟨.rmEndSession core.handle.raw, code⟩] () :=
        exec_handle_drop_iff.mpr (.inr ⟨hOpen, code, rfl⟩)
      rcases owned with rfl | ⟨outcome, rfl⟩
      · exact lived.dropped nofun run
      · exact lived.dropped nofun run
  | retried failed again =>
      have run := (@exec_end_iff _ _ core _ hOpen).mpr (.inr ⟨_, again, failed, rfl, rfl⟩)
      rcases owned with rfl | ⟨outcome, rfl⟩
      · have hEnd : (do return (.gone, .done (← core.end)) : Native (Value × Output)).Exec _ _ :=
          exec_bind_iff.mpr ⟨_, [], _, (List.append_nil _).symm, run, .refl _⟩
        exact @Lived.perform _ _ _ _ _ .endSession _ _ lived rfl hEnd
      · have hEnded : (RecoveryCompletion.mk core outcome).end.Exec _ _ :=
          exec_bind_iff.mpr ⟨_, [], _, (List.append_nil _).symm, run, .refl _⟩
        have hEnd : (do return (.gone, .ended (← (RecoveryCompletion.mk core outcome).end)) :
            Native (Value × Output)).Exec _ _ :=
          exec_bind_iff.mpr ⟨_, [], _, (List.append_nil _).symm, hEnded, .refl _⟩
        exact @Lived.perform _ _ _ _ _ .endSession _ _ lived rfl hEnd

/-- A restart whose callback panics at its first value. -/
theorem lived_unwound (opened : Opened reply key) (options : ShutdownOptions) (trampoline : Bool)
    (stopped restarted again : OperationReply) (called : deliveries none restarted.reports ≠ [])
    (ended : UInt32) : Lived .gone [⟨.rmStartSession, reply⟩,
      ⟨.rmShutdown reply.raw options.nativeFlags trampoline, stopped⟩,
      ⟨.rmRestart reply.raw 0 true, restarted⟩, ⟨.rmRestart reply.raw 0 false, again⟩,
      ⟨.rmEndSession reply.raw, ended⟩] := by
  obtain ⟨outcome, hLived⟩ := lived_pending opened options trampoline stopped
  let core : SessionCore := ⟨⟨reply.raw, false⟩, key⟩
  obtain ⟨progress, rest, hCalled⟩ := List.exists_cons_of_ne_nil called
  have hDrop : (RestartPending.mk (some core) (some outcome)).drop.Exec
      [⟨.rmRestart reply.raw 0 false, again⟩, ⟨.rmEndSession reply.raw, ended⟩] () :=
    exec_pending_drop_iff.mpr ⟨again, _, rfl, exec_handle_drop_iff.mpr (.inr ⟨rfl, ended, rfl⟩)⟩
  have run : ((RestartPending.mk (some core) (some outcome)).restartWithProgress .user).run.Exec _ _ :=
    exec_restartWithProgress_iff.mpr
      (@ProgressRun.panicked _ _ _ _ _ _ _ restarted [] rest progress (.user 0) _ hCalled rfl hDrop)
  have hNext := @Lived.perform _ _ _ _ _ (.restartWithProgress .user) _ _ hLived rfl
    (exec_consuming_panicked run)
  rw [steering_progress rfl, steering_panicked] at hNext
  exact hNext

/-- Each word of the grammar is the trace of a life: one case for each production. -/
theorem Word.lived (word : Word trace) : Lived .gone trace := by
  cases word with
  | @failed reply code =>
      have hLived := lived_unopened reply 0 fun key h => code h.code
      rwa [if_neg code] at hLived
  | @malformed reply code unkeyed ended =>
      have hLived := lived_unopened reply ended unkeyed
      rwa [if_pos code] at hLived
  | unused opened ended => exact (lived_session opened).ended (.inl rfl) rfl ended
  | used opened options trampoline stopped recovered ended =>
      obtain ⟨outcome, hLived⟩ := lived_completion opened options trampoline stopped recovered
      exact hLived.ended (.inr ⟨outcome, rfl⟩) rfl ended
  | unwound opened options trampoline stopped restarted again called ended =>
      exact lived_unwound opened options trampoline stopped restarted again called ended

/-- The lives of a primary session, through any methods and to its end, ask
Windows for the words of the language and for no others. -/
theorem lived_iff_word : Lived .gone trace ↔ Word trace := by
  constructor
  · rintro ⟨history, life, rfl⟩
    have living := living_of_life life
    generalize steering (events history) = trace at living
    cases living with
    | session _ unshut => simp at unshut
    | pending _ armed => simp at armed
    | gone complete => exact complete
  · exact Word.lived

/-! ### Lives under way -/

/-- What is held can be dropped, whatever it is. -/
theorem Lived.begins {first : Trace} (lived : Lived value (first ++ trace)) :
    ∃ word, Word word ∧ first <+: word := by
  by_cases hGone : value = .gone
  · subst hGone
    exact ⟨_, lived_iff_word.mp lived, List.prefix_append _ _⟩
  · obtain ⟨later, ⟨⟩, run⟩ := exists_exec (fun c => Classical.choice c.answered) value.drop
    refine ⟨_, lived_iff_word.mp (lived.dropped hGone run), ?_⟩
    rw [List.append_assoc]
    exact List.prefix_append _ _

/-- At any moment, what was asked is the beginning of a word. -/
theorem begins_of_observed {history : List Entry} (h : Observed history) :
    ∃ word, Word word ∧ steering (events history) <+: word := by
  cases h with
  | @starting trace p run =>
      obtain ⟨rest, result, hRest⟩ := exists_exec (fun c => Classical.choice c.answered) p
      have hNew : RestartSession.new.Exec (trace ++ rest) result := run.trans hRest
      have hLived : ∃ value, Lived value (steering (trace ++ rest)) := by
        cases result with
        | error error => exact ⟨_, _, .failed hNew, by rw [events_calls]⟩
        | ok session => exact ⟨_, _, .started hNew, by rw [events_calls]⟩
      obtain ⟨value, hLived⟩ := hLived
      rw [steering_append] at hLived
      rw [events_calls]
      exact hLived.begins
  | idle life =>
      have hLived : Lived _ (steering (events history) ++ []) := ⟨_, life, (List.append_nil _).symm⟩
      exact hLived.begins
  | @performing before value op p q trace life method run =>
      obtain ⟨rest, ⟨value', output⟩, hRest⟩ := exists_exec (fun c => Classical.choice c.answered) q
      have hLived : Lived value (steering (events before)) := ⟨_, life, rfl⟩
      have hAfter := hLived.perform method (run.trans hRest)
      rw [steering_append, ← List.append_assoc, ← steering_append] at hAfter
      rw [events_perform]
      exact hAfter.begins

end

end LifeCycle
end RestartManager
