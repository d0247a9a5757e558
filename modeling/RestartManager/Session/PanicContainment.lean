import RestartManager.Session.Footprint
import RestartManager.Session.Transcripts
import RestartManager.Sys.CallbackRuns

/-! A panic of a progress callback: it never reaches the native frames, ends
the delivery, and is resumed by the method that was given the callback once
the native call has returned and the lease is released. -/
namespace RestartManager

open Interaction Program Transition

variable [Platform]

/-! ### The trampoline -/

/-- Nothing unwinds out of the trampoline. -/
theorem callbackTrampoline_returns {σ : Type} {callback : Closure σ} {slot : Option (CallbackState σ)}
    {percent : UInt32} {trace : Trace} {result : Except Payload (Option (CallbackState σ))}
    (run : (callbackTrampoline callback slot percent).run.Exec trace result) :
    ∃ slot', result = .ok slot' := by
  cases slot with
  | none =>
      obtain ⟨-, rfl⟩ := exec_done_iff.mp run
      exact ⟨none, rfl⟩
  | some state =>
      rw [callbackTrampoline_run] at run
      obtain ⟨first, second, state', -, -, hReturn⟩ := exec_bind_iff.mp run
      obtain ⟨-, rfl⟩ := exec_done_iff.mp hReturn
      exact ⟨some state', rfl⟩

/-! ### Interleaved operations -/

namespace CallbackSlot

/-- What holds of the panics of the callbacks, in a state that the history of
any operations leads to. Each callback delivers validated progress. -/
structure Contained (history : List Label) (s : State Delivery) : Prop where
  /-- No panic leaves the trampoline for the native frames. -/
  suppressed : ∀ r payload, .unwind r payload ∉ history
  /-- A report runs to its return on whatever thread raised it. -/
  returns : ∀ r i percent target rest l t, s.report r = .calling i percent target rest →
    Step (fun _ => deliverProgress .user) s l t →
      (∃ rest', t.report r = .calling i percent target rest') ∨ t.report r = .returned
  /-- A panic is the last thing that the callback does. -/
  last : ∀ i outcome progress payload, s.op i = .finished outcome →
    panicked progress payload ∈ events i history →
      ∃ before, events i history = before ++ [panicked progress payload] ∧
        ∀ progress' payload', panicked progress' payload' ∉ before
  /-- The native call has returned, the lease was then released, and only then
  is the panic resumed, whatever the code was. -/
  resumed : ∀ i outcome, s.op i = .finished outcome → ∃ code, Ended history i code ∧
    (∀ progress payload, panicked progress payload ∈ events i history → outcome = .error payload) ∧
    ((∀ progress payload, panicked progress payload ∉ events i history) →
      outcome = .ok (if code = ERROR_SUCCESS then .ok () else .error (.os code)))

section

variable {history : List Label} {s t : State Delivery} {l : Label}

/-- A step leaves a report that is being called alone, or is a step of it. -/
theorem Consistent.calling_step {σ : Type} {callback : Nat → Closure σ} {s t : State σ}
    (h : Consistent s) {r i target : Nat} {percent : UInt32}
    {rest : Native (Except Payload (Option (CallbackState σ)))}
    (hCalling : s.report r = .calling i percent target rest) (step : Step callback s l t) :
    (∃ rest', t.report r = .calling i percent target rest') ∨ t.report r = .returned := by
  have hUpdate {r' : Nat} {phase : ReportPhase σ} (hr : r ≠ r') :
      Function.update s.report r' phase r = .calling i percent target rest := by
    rw [Function.update_of_ne hr, hCalling]
  cases step with
  | tryLock | wouldBlock | occupied | install | start | return_ | lockRelease | release | finish =>
      exact .inl ⟨rest, hCalling⟩
  | @raise r' _ _ _ fresh =>
      refine .inl ⟨rest, hUpdate ?_⟩
      rintro rfl
      cases fresh.symm.trans hCalling
  | @deliver r' _ _ _ h' =>
      refine .inl ⟨rest, hUpdate ?_⟩
      rintro rfl
      cases h'.symm.trans hCalling
  | @lose r' _ _ h' =>
      refine .inl ⟨rest, hUpdate ?_⟩
      rintro rfl
      cases h'.symm.trans hCalling
  | @callback r' _ _ _ _ next response h' =>
      obtain rfl := h.one_calling hCalling h'
      cases h'.symm.trans hCalling
      exact .inl ⟨next response, Function.update_self ..⟩
  | @deliverEnd r' _ _ _ _ h' =>
      obtain rfl := h.one_calling hCalling h'
      exact .inr (Function.update_self ..)
  | unwind h' => exact absurd h' h.no_unwind

theorem unwind_not_mem {σ : Type} {callback : Nat → Closure σ} {captured : Nat → σ} {s : State σ}
    (run : Run (Step callback) (State.init captured) history s) (r : Nat) (payload : Payload) :
    .unwind r payload ∉ history := by
  induction run with
  | refl => nofun
  | snoc run step ih =>
      intro hMem
      rcases List.mem_append.mp hMem with hMem | hMem
      · exact ih hMem
      · obtain rfl := List.mem_singleton.mp hMem
        cases step with
        | unwind h' => exact (Consistent.of_run run).no_unwind h'

/-- What the callback of a finished operation did. -/
theorem finished_delivers (run : Run (Step fun _ => deliverProgress .user)
    (State.init fun _ => ⟨none, false⟩) history s) {i : Nat} {outcome : Except Payload (SysResult Unit)}
    (h : s.op i = .finished outcome) :
    Delivers .user none (samples i history) (events i history) (s.state i) :=
  exec_reports_iff.mp (finished_loop run h).1

end

end CallbackSlot

section

variable {callback : Callback} {last : Option Progress} {reports : List UInt32} {trace : Trace}
  {state : CallbackState Delivery}

theorem panicked_not_mem_delivered {values : List Progress} {progress : Progress}
    {payload : Payload} : panicked progress payload ∉ values.map callback.delivered := by
  intro hMem
  obtain ⟨value, -, h⟩ := List.mem_map.mp hMem
  cases callback <;> cases h

/-- The panic that a delivery ended with, if there is one, is in its state. -/
theorem Delivers.panicked (h : Delivers callback last reports trace state) {progress : Progress}
    {payload : Payload} (hMem : RestartManager.panicked progress payload ∈ trace) :
    state.panic = some payload ∧ ∃ before,
      trace = before ++ [RestartManager.panicked progress payload] ∧
      ∀ progress' payload', RestartManager.panicked progress' payload' ∉ before := by
  cases h with
  | all => exact absurd hMem panicked_not_mem_delivered
  | panic reached user =>
      rcases List.mem_append.mp hMem with hMem | hMem
      · exact absurd hMem panicked_not_mem_delivered
      · cases List.mem_singleton.mp hMem
        exact ⟨rfl, _, rfl, fun _ _ => panicked_not_mem_delivered⟩

theorem Delivers.calm (h : Delivers callback last reports trace state)
    (hCalm : ∀ progress payload, RestartManager.panicked progress payload ∉ trace) :
    state.panic = none := by
  cases h with
  | all => rfl
  | @panic before rest progress payload reached user =>
      exact absurd (List.mem_append_right _ List.mem_cons_self) (hCalm progress payload)

end

theorem CallbackSlot.contained {history : List Label} {s : State Delivery}
    (run : Run (Step fun _ => deliverProgress .user) (State.init fun _ => ⟨none, false⟩) history s) :
    Contained history s where
  suppressed := unwind_not_mem run
  returns r i percent target rest l t hCalling step :=
    (Consistent.of_run run).calling_step hCalling step
  last i outcome progress payload h hMem := ((finished_delivers run h).panicked hMem).2
  resumed i outcome h := by
    obtain ⟨-, code, hEnded, rfl⟩ := finished_loop run h
    have hDelivers := finished_delivers run h
    refine ⟨code, hEnded, ?_, ?_⟩
    · intro progress payload hMem
      rw [(hDelivers.panicked hMem).1]
    · intro hCalm
      rw [hDelivers.calm hCalm]
      unfold check
      split_ifs <;> rfl

/-! ### The methods -/

/-- A method that takes a callback of the caller's and makes the call `native`. -/
structure PanicResumed {α : Type} (native : OperationReply → Event) (method : UnwindM α) : Prop where
  /-- The callback can panic at any report that it is called for. -/
  possible : ∀ (reply : OperationReply) (before rest : List Progress) (progress : Progress)
    (payload : Payload), deliveries none reply.reports = before ++ progress :: rest →
      ∃ trace result, method.run.Exec trace result ∧ native reply ∈ trace ∧
        panicked progress payload ∈ trace
  /-- The method then unwinds with that payload, whatever the native code was,
  and the callback is not called again. -/
  resumed : ∀ trace result progress payload, method.run.Exec trace result →
    panicked progress payload ∈ trace →
      ∃ reply before rest recovery, deliveries none reply.reports = before ++ progress :: rest ∧
        trace = ⟨.installLease, true⟩ :: native reply :: (before.map Callback.user.delivered ++
          (panicked progress payload :: ⟨.releaseLease, ()⟩ :: recovery)) ∧
        (∀ event ∈ recovery, ¬event.1.CallsBack) ∧ result = .error payload
  /-- Without a panic it returns. -/
  returned : ∀ trace result, method.run.Exec trace result →
    (∀ progress payload, panicked progress payload ∉ trace) → ∃ value, result = .ok value

/-- The drop of a pending value reaches no callback. -/
theorem recovery_callsBack {core : SessionCore} {shutdown : Option OperationOutcome} {trace : Trace}
    (h : (RestartPending.mk (some core) shutdown).drop.Exec trace ()) :
    ∀ event ∈ trace, ¬event.1.CallsBack := by
  obtain ⟨reply, rest, rfl, hDrop⟩ := exec_pending_drop_iff.mp h
  intro event hMem
  rcases List.mem_cons.mp hMem with rfl | hMem
  · exact id
  · rcases exec_handle_drop_iff.mp hDrop with ⟨-, rfl⟩ | ⟨-, code, rfl⟩
    · cases hMem
    · cases List.mem_singleton.mp hMem
      exact id

theorem panicResumed {α : Type} {native : OperationReply → Event} {method : UnwindM α} {refused : α}
    {completed : OperationReply → α} {abandoned : Native Unit}
    (hMethod : ∀ trace result, method.run.Exec trace result ↔
      ProgressRun .user native refused completed abandoned trace result)
    (hRecovery : ∀ recovery, abandoned.Exec recovery () → ∀ event ∈ recovery, ¬event.1.CallsBack)
    (hNative : ∀ reply, ¬(native reply).1.CallsBack) : PanicResumed native method where
  possible reply before rest progress payload reached := by
    obtain ⟨recovery, ⟨⟩, dropped⟩ :=
      exists_exec (fun c => Classical.choice (Call.answered c)) abandoned
    refine ⟨_, _, (hMethod _ _).mpr (@ProgressRun.panicked _ _ _ _ _ _ _ reply before rest progress
      payload recovery reached rfl dropped), by simp, ?_⟩
    simp
  resumed trace result progress payload run hMem := by
    have hCallsBack : (panicked progress payload).1.CallsBack := trivial
    cases (hMethod _ _).mp run with
    | refused => cases List.mem_singleton.mp hMem
    | completed =>
        rw [List.mem_cons, List.mem_cons, List.mem_append] at hMem
        rcases hMem with h | h | h | h
        · cases h
        · exact absurd (h ▸ hCallsBack) (hNative _)
        · exact absurd h panicked_not_mem_delivered
        · cases List.mem_singleton.mp h
    | @panicked reply before rest progress' payload' recovery reached user dropped =>
        have hCalls := hRecovery recovery dropped
        rw [List.mem_cons, List.mem_cons, List.mem_append, List.mem_cons, List.mem_cons] at hMem
        rcases hMem with h | h | h | h | h | h
        · cases h
        · exact absurd (h ▸ hCallsBack) (hNative _)
        · exact absurd h panicked_not_mem_delivered
        · cases h
          exact ⟨reply, before, rest, recovery, reached, rfl, hCalls, rfl⟩
        · cases h
        · exact absurd hCallsBack (hCalls _ h)
  returned trace result run hCalm := by
    cases (hMethod _ _).mp run with
    | refused => exact ⟨_, rfl⟩
    | completed => exact ⟨_, rfl⟩
    | @panicked reply before rest progress payload recovery reached user dropped =>
        refine absurd ?_ (hCalm progress payload)
        simp

/-- A callback panic is contained, and resumed once by the method that was
given the callback. -/
theorem panic_containment (session : RestartSession) (options : ShutdownOptions) (core : SessionCore)
    (shutdown : OperationOutcome) :
    (∀ (σ : Type) (callback : Closure σ) slot percent trace result,
      (callbackTrampoline callback slot percent).run.Exec trace result → ∃ slot', result = .ok slot') ∧
    (∀ history s, Run (CallbackSlot.Step fun _ => deliverProgress .user)
      (CallbackSlot.State.init fun _ => ⟨none, false⟩) history s → CallbackSlot.Contained history s) ∧
    PanicResumed
      (fun reply => ⟨.rmShutdown session.core.handle.raw options.nativeFlags true, reply⟩)
      (session.shutdownWithProgress options .user) ∧
    PanicResumed (fun reply => ⟨.rmRestart core.handle.raw 0 true, reply⟩)
      ((RestartPending.mk (some core) (some shutdown)).restartWithProgress .user) := by
  refine ⟨fun σ callback slot percent trace result run => callbackTrampoline_returns run,
    fun history s run => CallbackSlot.contained run, ?_, ?_⟩
  · apply panicResumed
    · exact fun trace result => exec_shutdownWithProgress_iff
    · exact fun recovery h => recovery_callsBack h
    · exact fun reply => id
  · apply panicResumed
    · exact fun trace result => exec_restartWithProgress_iff
    · exact fun recovery h => recovery_callsBack h
    · exact fun reply => id

end RestartManager
