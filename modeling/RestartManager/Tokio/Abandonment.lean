import RestartManager.Tokio.Executions

/-! A client may drop what it owns at any moment. The worker still executes
every command that was sent, and recovers and ends the session it began. -/
namespace RestartManager

open Interaction Contract Program Transition

namespace Tokio

section

variable [Platform]

/-! ### The end of the worker -/

section Finite

variable {opening : Opening} {s t : System} {l : Label}

/-- The steps of a worker whose client is gone, on its phase and its channel. -/
inductive Alone : WorkerPhase × List (Nat × Command) → WorkerPhase × List (Nat × Command) → Prop
  | openCall {c : Call} {next : c.Response → Native (Except Error (WorkerState × Handle))}
      {queue : List (Nat × Command)} (response : c.Response) :
      Alone (.opening (.call c next), queue) (.opening (next response), queue)
  | openFailed {error : Error} {queue : List (Nat × Command)} :
      Alone (.opening (.done (.error error)), queue) (.terminated, queue)
  | openDone {state : WorkerState} {handle : Handle} {queue : List (Nat × Command)} :
      Alone (.opening (.done (.ok (state, handle))), queue) (.opened state handle, queue)
  | initUnsent {state : WorkerState} {handle : Handle} {queue : List (Nat × Command)} :
      Alone (.opened state handle, queue) (.dropping state.drop, queue)
  | take {state : WorkerState} {ticket : Nat} {command : Command} {queue : List (Nat × Command)} :
      Alone (.idle state, (ticket, command) :: queue)
        (.executing ticket command (executeCommand command state), queue)
  | executeCall {ticket : Nat} {command : Command} {c : Call}
      {next : c.Response → Native (Except Payload Reply × WorkerState)} {queue : List (Nat × Command)}
      (response : c.Response) : Alone (.executing ticket command (.call c next), queue)
        (.executing ticket command (next response), queue)
  | answer {ticket : Nat} {command : Command} {reply : Reply} {state : WorkerState}
      {queue : List (Nat × Command)} :
      Alone (.executing ticket command (.done (.ok reply, state)), queue) (.idle state, queue)
  | unwind {ticket : Nat} {command : Command} {payload : Payload} {state : WorkerState}
      {queue : List (Nat × Command)} :
      Alone (.executing ticket command (.done (.error payload, state)), queue)
        (.dropping state.drop, queue)
  | disconnect {state : WorkerState} : Alone (.idle state, []) (.dropping state.drop, [])
  | dropCall {c : Call} {next : c.Response → Native Unit} {queue : List (Nat × Command)}
      (response : c.Response) : Alone (.dropping (.call c next), queue) (.dropping (next response), queue)
  | terminate {queue : List (Nat × Command)} : Alone (.dropping (.done ()), queue) (.terminated, queue)

/-- Without its client the worker goes on alone. -/
theorem Step.alone (hClient : s.client = .gone) (step : Step opening s l t) :
    t.client = .gone ∧ Alone (s.worker, s.queue) (t.worker, t.queue) := by
  cases step
  case openCall response h =>
    rw [h]
    exact ⟨hClient, .openCall response⟩
  case openFailed h =>
    rw [h]
    exact ⟨hClient, .openFailed⟩
  case openDone h =>
    rw [h]
    exact ⟨hClient, .openDone⟩
  case initUnsent h dropped =>
    rw [h]
    exact ⟨hClient, .initUnsent⟩
  case take h queued =>
    rw [h, queued]
    exact ⟨hClient, .take⟩
  case executeCall response h =>
    rw [h]
    exact ⟨hClient, .executeCall response⟩
  case answer h =>
    rw [h]
    exact ⟨hClient, .answer⟩
  case unwind h =>
    rw [h]
    exact ⟨hClient, .unwind⟩
  case disconnect h drained dropped =>
    rw [h, drained]
    exact ⟨hClient, .disconnect⟩
  case dropCall response h =>
    rw [h]
    exact ⟨hClient, .dropCall response⟩
  case terminate h =>
    rw [h]
    exact ⟨hClient, .terminate⟩
  case abandon owned cancelled => exact absurd hClient owned
  -- Every other step is one that the client makes or waits for.
  all_goals simp_all

namespace Alone

variable {queue : List (Nat × Command)}

/-- A worker that has ended makes no step. -/
theorem finite_terminated : Acc (flip Alone) (.terminated, queue) := by
  constructor
  intro next step
  cases step

/-- Its destructor is a program, and those are finite. -/
theorem finite_dropping (rest : Native Unit) : Acc (flip Alone) (.dropping rest, queue) := by
  induction rest with
  | done result =>
      constructor
      intro next step
      cases step with
      | terminate => exact finite_terminated
  | call c next ih =>
      constructor
      intro next step
      cases step with
      | dropCall response => exact ih response

/-- A command that is being executed, once the worker that waits is known to finish. -/
theorem finite_executing {ticket : Nat} {command : Command}
    (rest : Native (Except Payload Reply × WorkerState))
    (hIdle : ∀ state, Acc (flip Alone) (.idle state, queue)) :
    Acc (flip Alone) (.executing ticket command rest, queue) := by
  induction rest with
  | done result =>
      constructor
      intro next step
      cases step with
      | answer => exact hIdle _
      | unwind => exact finite_dropping _
  | call c next ih =>
      constructor
      intro next step
      cases step with
      | executeCall response => exact ih response

/-- By induction on the queue. -/
theorem finite_idle (state : WorkerState) : Acc (flip Alone) (.idle state, queue) := by
  induction queue generalizing state with
  | nil =>
      constructor
      intro next step
      cases step with
      | disconnect => exact finite_dropping _
  | cons pair queue ih =>
      constructor
      intro next step
      cases step with
      | take => exact finite_executing _ ih

/-- The handle is handed over or dropped. -/
theorem finite_opened (state : WorkerState) (handle : Handle) :
    Acc (flip Alone) (.opened state handle, queue) := by
  constructor
  intro next step
  cases step with
  | initUnsent => exact finite_dropping _

/-- The opening is a program too. -/
theorem finite_opening (rest : Native (Except Error (WorkerState × Handle))) :
    Acc (flip Alone) (.opening rest, queue) := by
  induction rest with
  | done result =>
      constructor
      intro next step
      cases step with
      | openFailed => exact finite_terminated
      | openDone => exact finite_opened _ _
  | call c next ih =>
      constructor
      intro next step
      cases step with
      | openCall response => exact ih response

/-- So the worker alone makes finitely many steps from any phase. -/
theorem finite (worker : WorkerPhase) : Acc (flip Alone) (worker, queue) := by
  cases worker with
  | absent =>
      constructor
      intro next step
      cases step
  | opening rest => exact finite_opening rest
  | opened state handle => exact finite_opened state handle
  | idle state => exact finite_idle state
  | executing ticket command rest => exact finite_executing rest finite_idle
  | dropping rest => exact finite_dropping rest
  | terminated => exact finite_terminated

end Alone

/-- A worker that is abandoned makes finitely many steps. -/
theorem finishes (hClient : s.client = .gone) : Terminates (Step opening) s := by
  have hFinite : Acc (flip Alone) (s.worker, s.queue) := Alone.finite s.worker
  generalize hNow : (s.worker, s.queue) = now at hFinite
  induction hFinite generalizing s with
  | intro now _ ih =>
      apply terminates_of_steps
      intro l t step
      obtain ⟨hGone, hAlone⟩ := step.alone hClient
      rw [hNow] at hAlone
      exact ih _ hAlone hGone rfl

/-- An abandoned worker that has not terminated is never stuck. -/
theorem progress (hClient : s.client = .gone) (hAbsent : s.worker ≠ .absent)
    (hTerminated : s.worker ≠ .terminated) : ∃ l t, Step opening s l t := by
  cases hWorker : s.worker with
  | absent => exact absurd hWorker hAbsent
  | terminated => exact absurd hWorker hTerminated
  | opening rest =>
      cases rest with
      | done result =>
          cases result with
          | error error => exact ⟨_, _, .openFailed hWorker⟩
          | ok opened => exact ⟨_, _, .openDone hWorker⟩
      | call c next =>
          obtain ⟨response⟩ := c.answered
          exact ⟨_, _, @Step.openCall _ _ _ _ _ response hWorker⟩
  | opened state handle => exact ⟨_, _, .initUnsent hWorker (by simp [hClient])⟩
  | idle state =>
      cases hQueue : s.queue with
      | nil => exact ⟨_, _, .disconnect hWorker hQueue hClient⟩
      | cons pair queue => exact ⟨_, _, .take hWorker hQueue⟩
  | executing ticket command rest =>
      cases rest with
      | done result =>
          obtain ⟨outcome, state⟩ := result
          cases outcome with
          | ok reply => exact ⟨_, _, .answer hWorker⟩
          | error payload => exact ⟨_, _, .unwind hWorker⟩
      | call c next =>
          obtain ⟨response⟩ := c.answered
          exact ⟨_, _, @Step.executeCall _ _ _ _ _ _ _ response hWorker⟩
  | dropping rest =>
      cases rest with
      | done result => exact ⟨_, _, .terminate hWorker⟩
      | call c next =>
          obtain ⟨response⟩ := c.answered
          exact ⟨_, _, @Step.dropCall _ _ _ _ _ response hWorker⟩

end Finite

/-! ### Cleanup -/

section Cleanup

variable {opening : Opening} {history later : List Label} {s t : System} {l : Label}

/-- The client has dropped its sender and the worker drops its typestate. -/
def System.Closing (s : System) : Prop :=
  s.client = .gone ∧ ((∃ rest, s.worker = .dropping rest) ∨ s.worker = .terminated)

/-- A worker that is closing takes no command, and cleans up once only. -/
theorem System.Closing.step (h : s.Closing) (step : Step opening s l t) :
    t.Closing ∧ l.sent? = none ∧ l ≠ .cleanup := by
  obtain ⟨hClient, hWorker⟩ := h
  cases step
  case dropCall response h => exact ⟨⟨hClient, .inl ⟨_, rfl⟩⟩, rfl, nofun⟩
  case terminate h => exact ⟨⟨hClient, .inr rfl⟩, rfl, nofun⟩
  all_goals simp_all

/-- By induction on the run. -/
theorem System.Closing.run (h : s.Closing) (run : Run (Step opening) s later t) :
    t.Closing ∧ Tokio.sent later = [] ∧ .cleanup ∉ later := by
  induction run with
  | refl => exact ⟨h, rfl, List.not_mem_nil⟩
  | snoc _ step ih =>
      obtain ⟨hClosing, hSent, hCleanup⟩ := ih
      obtain ⟨hClosing, hLabel, hOther⟩ := hClosing.step step
      refine ⟨hClosing, ?_, ?_⟩
      · rw [sent_snoc, hSent, hLabel]
        rfl
      · simp only [List.mem_append, List.mem_singleton, not_or]
        exact ⟨hCleanup, hOther.symm⟩

/-- Cleanup begins when every command that was sent has been answered. -/
theorem Pipeline.cleanup {done flight : List (Op × Command)}
    (h : Pipeline opening history s done flight) (step : Step opening s .cleanup t) :
    t.Closing ∧ executed history = (sent history).map Prod.snd ∧
      answered history = List.range (sent history).length := by
  obtain ⟨hPhase, -⟩ := h.coupled
  generalize hLabel : Label.cleanup = l at step
  cases step
  case initUnsent state handle hWorker hClient =>
    have hStage := h.stage
    rw [hWorker] at hStage hPhase
    generalize calls history = trace, released history = flag at hStage
    cases hStage with
    | opened begun matched fits =>
        refine ⟨⟨hPhase.1.resolve_left hClient, .inl ⟨_, rfl⟩⟩, ?_, ?_⟩
        · rw [h.executed_eq, h.sent_eq, List.append_nil]
        · rw [h.answered_eq, h.sent_eq, hWorker]
          rfl
  case unwind hWorker => exact (h.no_unwind hWorker).elim
  case disconnect hWorker hQueue hClient =>
    have hQueued := h.queue_eq
    rw [hQueue] at hQueued
    obtain rfl : flight = [] := by simpa using hQueued
    refine ⟨⟨hClient, .inl ⟨_, rfl⟩⟩, ?_, ?_⟩
    · rw [h.executed_eq, h.sent_eq, List.append_nil]
    · rw [h.answered_eq, h.sent_eq, List.append_nil, hWorker]
      rfl
  all_goals cases hLabel

/-- A history with a cleanup, cut there. -/
theorem cleanup_split {first second : List Label}
    (run : Run (Step opening) .init₀ (first ++ .cleanup :: second) s) :
    s.Closing ∧ executed first = (sent first).map Prod.snd ∧
      answered first = List.range (sent first).length ∧ sent second = [] ∧ .cleanup ∉ second := by
  obtain ⟨t, t', before, here, after⟩ := run.split
  obtain ⟨done, flight, h⟩ := Pipeline.of_run before
  obtain ⟨hClosing, hExecuted, hAnswered⟩ := h.cleanup here
  obtain ⟨hClosing, hSent, hCleanup⟩ := hClosing.run after
  exact ⟨hClosing, hExecuted, hAnswered, hSent, hCleanup⟩

end Cleanup

/-! ### The worker's session -/

/-- A native start or join that succeeded, with the handle it returned. -/
def Begins : Event → UInt32 → Prop
  | ⟨.rmStartSession, reply⟩, raw => reply.code = ERROR_SUCCESS ∧ reply.raw = raw
  | ⟨.rmJoinSession _, reply⟩, raw => reply.code = ERROR_SUCCESS ∧ reply.raw = raw
  | _, _ => False

/-- What holds in every state of the facade, wherever the client drops what it
owns: no command is lost, and no session or recovery either. -/
structure Abandonment (opening : Opening) (history : List Label) (s : System) : Prop where
  /-- The commands sent are those taken, in that order, and those in the channel. -/
  in_order : executed history ++ s.queue.map Prod.snd = (sent history).map Prod.snd
  /-- Cleanup begins once, when every command sent was executed to its reply. -/
  drained : ∀ first second, history = first ++ .cleanup :: second →
    executed first = (sent history).map Prod.snd ∧
    answered first = List.range (sent history).length ∧ executed second = [] ∧ .cleanup ∉ second
  /-- What the worker calls between taking a command and answering it is a run
  of that command, on a typestate that fits the handle that sent it. -/
  executes : ∀ first command second ticket reply third,
    history = first ++ .execute command :: (second ++ .answer ticket reply :: third) →
    executed second = [] → ∃ (handle : Handle) (op : Op) (state state' : WorkerState),
      handle.Matches state ∧ handle.Sends op command ∧ (sent first)[ticket]? = some (op, command) ∧
      (executeCommand command state).Exec (calls second) (.ok reply, state')
  /-- No command is left when the worker has terminated. -/
  complete : s.worker = .terminated → executed history = (sent history).map Prod.snd ∧
    answered history = List.range (sent history).length
  /-- When the worker has terminated, the session it began has been ended. -/
  ended : s.worker = .terminated → ∀ first event raw second,
    history = first ++ .call event :: second → Begins event raw →
    ∃ code, .call ⟨.rmEndSession raw, code⟩ ∈ second
  /-- Between a shutdown and the end of the session there is a restart, unless
  the applications were left stopped. -/
  recovered : ∀ first shutdown second ending third,
    history = first ++ .call shutdown :: (second ++ .call ending :: third) →
    shutdown.1.IsShutdown → ending.1.IsEnd →
    (∃ restart, .call restart ∈ second ∧ restart.1.IsRestart) ∨
      .execute .leaveStopped ∈ first ++ .call shutdown :: second
  /-- A shutdown future that is dropped cancels a session that the worker owns. -/
  cancelling : ∀ rest, s.client = .cancelling rest → .cleanup ∉ history
  /-- Once the client is gone, the worker runs to its end. -/
  finishes : s.client = .gone → Terminates (Step opening) s
  progress : s.client = .gone → s.worker ≠ .absent → s.worker ≠ .terminated →
    ∃ l t, Step opening s l t

section

variable {opening : Opening} {history : List Label} {s : System}

theorem mem_entries {entry : Entry} (h : entry ∈ entries history) :
    ∃ l ∈ history, l.monitored = some entry := List.mem_filterMap.mp h

theorem entry_call {l : Label} {event : Event} (h : l.monitored = some (.call event)) :
    l = .call event := by
  cases l with
  | call event' =>
      cases h
      rfl
  | execute command => cases command <;> cases h
  | _ => cases h

theorem entry_leaveStopped {l : Label} (h : l.monitored = some (.op .leaveStopped)) :
    l = .execute .leaveStopped := by
  cases l with
  | execute command =>
      cases command <;> cases h
      rfl
  | _ => cases h

theorem entries_call (first second : List Label) (event : Event) :
    entries (first ++ .call event :: second) = entries first ++ .call event :: entries second := by
  simp [entries, Label.monitored]

/-- A call that begins a session leaves it live. -/
theorem begins_live {event : Event} {raw : UInt32} (h : Begins event raw) (m : Monitor) :
    (m.step (.call event)).live = some raw := by
  obtain ⟨c, response⟩ := event
  cases c <;> first | exact h.elim | skip
  all_goals
    obtain ⟨hCode, rfl⟩ := h
    exact if_pos hCode

/-- When the worker has terminated, nothing is in flight or live. -/
theorem Pipeline.terminated {done flight : List (Op × Command)}
    (h : Pipeline opening history s done flight) (hWorker : s.worker = .terminated) :
    flight = [] ∧ (monitor history).live = none := by
  have hStage := h.stage
  rw [hWorker] at hStage
  generalize calls history = trace, released history = flag at hStage
  cases hStage with
  | failed begun closed => exact ⟨rfl, closed⟩
  | terminated before run closed => exact ⟨rfl, closed⟩

/-- A history has one last command. -/
theorem last_execute {first first' second second' : List Label} {command command' : Command}
    (h : first ++ .execute command :: second = first' ++ .execute command' :: second')
    (hLast : executed second = []) (hLast' : executed second' = []) :
    first = first' ∧ command = command' ∧ second = second' := by
  have hNot {later : List Label} (h : executed later = []) (c : Command) : .execute c ∉ later := by
    intro hMem
    have hExecuted : c ∈ executed later := List.mem_filterMap.mpr ⟨_, hMem, rfl⟩
    rw [h] at hExecuted
    cases hExecuted
  rcases List.append_eq_append_iff.mp h with ⟨between, rfl, hRest⟩ | ⟨between, rfl, hRest⟩
  · cases between with
    | nil =>
        obtain ⟨hHead, hTail⟩ := List.cons.inj hRest
        cases hHead
        exact ⟨(List.append_nil _).symm, rfl, hTail⟩
    | cons l between =>
        obtain ⟨-, rfl⟩ := List.cons.inj hRest
        exact absurd (List.mem_append_right _ List.mem_cons_self) (hNot hLast command')
  · cases between with
    | nil =>
        obtain ⟨hHead, hTail⟩ := List.cons.inj hRest
        cases hHead
        exact ⟨List.append_nil _, rfl, hTail.symm⟩
    | cons l between =>
        obtain ⟨-, rfl⟩ := List.cons.inj hRest
        exact absurd (List.mem_append_right _ List.mem_cons_self) (hNot hLast' command)

/-- A command is answered with what its run returned. -/
theorem answered_exec {first second third : List Label} {command : Command} {ticket : Nat} {reply : Reply}
    (run : Run (Step opening) .init₀
      (first ++ .execute command :: (second ++ .answer ticket reply :: third)) s)
    (hLast : executed second = []) : ∃ (handle : Handle) (op : Op) (state state' : WorkerState),
      handle.Matches state ∧ handle.Sends op command ∧ (sent first)[ticket]? = some (op, command) ∧
      (executeCommand command state).Exec (calls second) (.ok reply, state') := by
  obtain ⟨t, t', before, here, -⟩ := @Run.split _ _ _ _ _ (first ++ .execute command :: second) third
    (.answer ticket reply) (by simpa using run)
  generalize hLabel : Label.answer ticket reply = l at here
  cases here
  case answer command' reply' final hWorker =>
    cases hLabel
    obtain ⟨first', second', u, state, queue, hHistory, hNone, hRun, hIdle, hQueue, hSteps⟩ :=
      executing_began before hWorker
    obtain ⟨rfl, rfl, rfl⟩ := last_execute hHistory hLast hNone
    obtain ⟨handle, op, hMatches, hSends, hSent⟩ := taken_sends hRun hIdle hQueue
    exact ⟨handle, op, state, final, hMatches, hSends, hSent, hSteps⟩
  all_goals cases hLabel

/-- In every run of the facade, with any interleaving, any native results and
any moment at which the client drops what it owns. -/
theorem abandonment (run : Run (Step opening) .init₀ history s) : Abandonment opening history s := by
  obtain ⟨done, flight, h⟩ := Pipeline.of_run run
  have hRecovery := RecoveryObligation.of_admits h.admits
  have hOrder : executed history ++ s.queue.map Prod.snd = (sent history).map Prod.snd := by
    rw [h.executed_eq, h.queue_commands, h.sent_eq, List.map_append]
  constructor
  case in_order => exact hOrder
  case drained =>
    rintro first second rfl
    obtain ⟨-, hExecuted, hAnswered, hSent, hCleanup⟩ := cleanup_split run
    have hAll : sent (first ++ .cleanup :: second) = sent first := by
      simp [sent, Label.sent?] at hSent ⊢
      exact hSent
    rw [hAll] at hOrder ⊢
    refine ⟨hExecuted, hAnswered, ?_, hCleanup⟩
    have hSplit : executed (first ++ .cleanup :: second) = executed first ++ executed second := by
      rw [executed, List.filterMap_append]
      rfl
    rw [hSplit, ← hExecuted, List.append_assoc, List.append_right_eq_self] at hOrder
    exact (List.append_eq_nil_iff.mp hOrder).1
  case executes =>
    rintro first command second ticket reply third rfl hLast
    exact answered_exec run hLast
  case complete =>
    intro hWorker
    obtain ⟨rfl, -⟩ := h.terminated hWorker
    refine ⟨?_, ?_⟩
    · rw [h.executed_eq, h.sent_eq, List.append_nil]
    · rw [h.answered_eq, h.sent_eq, List.append_nil, hWorker]
      rfl
  case ended =>
    rintro hWorker first event raw second rfl hBegins
    obtain ⟨-, hClosed⟩ := h.terminated hWorker
    have hAdmits := h.admits
    rw [monitor, entries_call, Monitor.after_append] at hClosed
    rw [entries_call, Monitor.admits_append] at hAdmits
    obtain ⟨code, hMem⟩ := hAdmits.2.2.ended (begins_live hBegins _) hClosed
    obtain ⟨l, hMem, hEntry⟩ := mem_entries hMem
    rw [entry_call hEntry] at hMem
    exact ⟨code, hMem⟩
  case recovered =>
    rintro first shutdown second ending third rfl hShutdown hEnding
    have hEntries := hRecovery.recovered_before_end (entries first) (.call shutdown)
      (entries second) (.call ending) (entries third) (by rw [entries_call, entries_call])
      hShutdown hEnding
    rcases hEntries with ⟨entry, hMem, hRestart⟩ | hLeft
    · cases entry with
      | op op => exact hRestart.elim
      | call restart =>
          obtain ⟨l, hMem, hEntry⟩ := mem_entries hMem
          rw [entry_call hEntry] at hMem
          exact .inl ⟨restart, hMem, hRestart⟩
    · rw [← entries_call] at hLeft
      obtain ⟨l, hMem, hEntry⟩ := mem_entries hLeft
      rw [entry_leaveStopped hEntry] at hMem
      exact .inr hMem
  case cancelling =>
    intro rest hClient hMem
    obtain ⟨first, second, rfl⟩ := List.append_of_mem hMem
    obtain ⟨⟨hGone, -⟩, -⟩ := cleanup_split run
    rw [hClient] at hGone
    cases hGone
  case finishes => exact finishes
  case progress => exact progress

end

end

section

attribute [local instance] Platform.driveLetters

def cancelledError : Error :=
  .new .cancelled (some ERROR_CANCELLED) "the Restart Manager operation was cancelled"

/-- A shutdown future is dropped while its command waits in the channel. -/
def cancelledShutdown : List Label :=
  [.silent, .call ⟨.rmStartSession, ⟨ERROR_SUCCESS, 3, zeroKey⟩⟩, .silent, .silent, .silent,
    .send .shutdown (.shutdown {}), .silent, .execute (.shutdown {}),
    .cancel ⟨.rmCancelCurrentTask 3, ERROR_SUCCESS⟩, .call ⟨.rmShutdown 3 0 false, ⟨[], ERROR_CANCELLED⟩⟩,
    .abandon, .answer 0 (.shutdown (.pending (.failed cancelledError))), .cleanup,
    .call ⟨.rmRestart 3 0 false, ⟨[], ERROR_SUCCESS⟩⟩, .call ⟨.rmEndSession 3, ERROR_SUCCESS⟩, .silent]

theorem abandonment_cancelled :
    ∃ s, s.worker = .terminated ∧ Abandonment .primary cancelledShutdown s := by
  let core : SessionCore := ⟨⟨3, false⟩, ⟨List.replicate 32 0x30, by decide⟩⟩
  have run : ∃ s, Run (Step .primary) .init₀ cancelledShutdown s ∧ s.worker = .terminated := by
    apply Exists.intro
    constructor
    apply Run.cons (.spawn rfl)
    apply Run.cons (.openCall rfl)
    apply Run.cons (@Step.openDone _ _ _ (.primary ⟨core⟩) _ rfl)
    apply Run.cons (.initSent rfl rfl)
    apply Run.cons (.openedHandle rfl rfl)
    apply Run.cons (.consume rfl rfl nofun)
    apply Run.cons (.cancel false rfl)
    apply Run.cons (.take rfl rfl)
    apply Run.cons (.cancelCall rfl)
    apply Run.cons (.executeCall rfl)
    apply Run.cons (.abandon nofun nofun)
    apply Run.cons (.answer rfl)
    apply Run.cons (.disconnect rfl rfl rfl)
    apply Run.cons (.dropCall rfl)
    apply Run.cons (.dropCall rfl)
    apply Run.cons (.terminate rfl)
    exact .refl
    rfl
  obtain ⟨s, run, hWorker⟩ := run
  exact ⟨s, hWorker, abandonment run⟩

end

end Tokio
end RestartManager
