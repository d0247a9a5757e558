import RestartManager.Tokio.Renumbering

/-! Runs of the facade without their refused operations. An operation may be
sent while earlier commands wait, and the worker refuses it once it has served
those; the client then holds the handle it had. -/
namespace RestartManager

open Interaction Program Transition

namespace Tokio

variable [Platform]

/-! ### Runs without an attempt -/

/-- Steps of the worker while it serves commands. -/
def Label.Serving : Label → Prop
  | .call _ | .execute _ | .answer .. => True
  | _ => False

/-- The worker refuses a command, and its future yields the refusal. -/
def refusal (command : Command) (ticket : Nat) (reply : Reply) : List Label :=
  [.execute command, .call ⟨.installLease, false⟩, .answer ticket reply, .yield ticket reply]

/-- `Erased short long`: the labels `short` are those of `long` without the
refused operations, and without the numbers of the commands. -/
inductive Erased : List Label → List Label → Prop
  | nil : Erased [] []
  | keep (l : Label) {short long : List Label} (rest : Erased short long) :
      Erased (l.unnumbered :: short) (l :: long)
  | attempt (op : Op) {command : Command} {reply : Reply} (ticket : Nat)
      {earlier short long : List Label} (refused : command.RefusedBy reply)
      (serving : ∀ l ∈ earlier, l.Serving) (rest : Erased short long) :
      Erased (shape earlier ++ short)
        (.send op command :: earlier ++ refusal command ticket reply ++ long)

/-- The client holds a handle of this typestate, and nothing is in flight. -/
structure Quiet (handle : Handle) (state : WorkerState) (s : System) : Prop where
  client : s.client = .holding handle
  worker : s.worker = .idle state
  queue : s.queue = []

/-- One more command was sent. -/
def System.sending (s : System) (future : Future) (command : Command) : System := { s with
  client := .awaiting future s.sent
  queue := s.queue ++ [(s.sent, command)]
  sent := s.sent + 1 }

section

variable {opening : Opening} {history earlier : List Label} {s s' t u : System} {l : Label}
  {handle : Handle} {op : Op} {command : Command} {future : Future} {reply : Reply} {ticket : Nat}
  {state : WorkerState}

/-- A refused command was sent by a method that takes its handle and gets it back. -/
theorem Step.refused (hRefused : command.RefusedBy reply) (step : Step opening s (.send op command) t) :
    ∃ handle future, s.client = .holding handle ∧ future.handle reply = some handle ∧
      t = s.sending future command := by
  cases step with
  | borrow h method alive =>
      unfold Handle.borrowed at method
      split at method <;> cases method <;> cases hRefused
  | consume h method alive =>
      refine ⟨_, _, h, ?_, rfl⟩
      unfold Handle.consumed at method
      split at method <;> cases method <;> cases hRefused <;> rfl

/-- The worker serves what was sent before. -/
theorem Step.before_sending (step : Step opening (s.sending future command) l t) (hServing : l.Serving) :
    (∃ s', Step opening s l s' ∧ s'.client = s.client ∧ t = s'.sending future command) ∨
    s.queue = [] ∧ t.queue = [] := by
  generalize hSystem : s.sending future command = s₁ at step
  cases step
  case openCall hWorker =>
    subst hSystem
    exact .inl ⟨_, .openCall hWorker, rfl, rfl⟩
  case executeCall hWorker =>
    subst hSystem
    exact .inl ⟨_, .executeCall hWorker, rfl, rfl⟩
  case dropCall hWorker =>
    subst hSystem
    exact .inl ⟨_, .dropCall hWorker, rfl, rfl⟩
  case answer hWorker =>
    subst hSystem
    exact .inl ⟨_, .answer hWorker, rfl, rfl⟩
  case take hWorker queued =>
    subst hSystem
    cases hQueue : s.queue with
    | nil =>
        rw [System.sending, hQueue] at queued
        cases queued
        exact .inr ⟨rfl, rfl⟩
    | cons entry queue =>
        rw [System.sending, hQueue] at queued
        cases queued
        exact .inl ⟨_, .take hWorker hQueue, rfl, rfl⟩
  all_goals cases hServing

/-- A worker takes no command from an empty channel. -/
theorem no_execute (run : Run (Step opening) s (earlier ++ .execute command :: history) t)
    (hServing : ∀ l ∈ earlier, l.Serving) : s.queue ≠ [] := by
  intro hQueue
  induction earlier generalizing s with
  | nil =>
      obtain ⟨u, step, -⟩ := run.of_cons
      cases step with
      | take hWorker queued => simp [hQueue] at queued
  | cons l earlier ih =>
      obtain ⟨u, step, rest⟩ := run.of_cons
      have hl : l.Serving := hServing l List.mem_cons_self
      have hKept : u.queue = [] := by
        cases step
        case take hWorker queued => simp [hQueue] at queued
        all_goals first | exact hQueue | cases hl
      exact ih rest (fun l hMem => hServing l (List.mem_cons_of_mem _ hMem)) hKept

/-- The tickets in the channel were handed out. -/
theorem Pipeline.queue_lt {done flight : List (Op × Command)}
    (h : Pipeline opening history s done flight) {entry : Nat × Command} (hMem : entry ∈ s.queue) :
    entry.1 < s.sent := by
  rw [h.queue_eq] at hMem
  obtain ⟨⟨pair, n⟩, hPair, rfl⟩ := List.mem_map.mp hMem
  have hRange := List.mem_zipIdx hPair
  rw [h.count_eq]
  omega

/-- A worker that refuses a command has no other, and keeps its typestate. -/
theorem refusal_run {done flight : List (Op × Command)}
    (h : Pipeline opening history s done flight) (hRefused : command.RefusedBy reply)
    (hHandle : future.handle reply = some handle)
    (run : Run (Step opening) (s.sending future command) (refusal command ticket reply) t) :
    ∃ state, s.worker = .idle state ∧ s.queue = [] ∧ Quiet handle state t ∧ t.init = s.init := by
  obtain ⟨s₁, taken, run⟩ := run.of_cons
  obtain ⟨s₂, called, run⟩ := run.of_cons
  obtain ⟨s₃, answered, run⟩ := run.of_cons
  obtain ⟨s₄, yielded, run⟩ := run.of_cons
  obtain rfl := run.of_nil
  cases taken with
  | @take state number _ rest hWorker queued =>
      have hExec : ∃ next state', executeCommand command state = .call .installLease next ∧
          next false = .done (.ok reply, state') ∧ ticket = number ∧
          s₃ = { s.sending future command with
            queue := rest
            worker := .idle state'
            replies := Function.update s.replies number (some reply) } := by
        cases called with
        | openCall h => cases h
        | dropCall h => cases h
        | executeCall hCall =>
            obtain ⟨rfl, -, hCall⟩ := WorkerPhase.executing.inj hCall
            cases answered with
            | answer hAnswer =>
                obtain ⟨rfl, -, hAnswer⟩ := WorkerPhase.executing.inj hAnswer
                exact ⟨_, _, hCall, hAnswer, rfl, rfl⟩
      obtain ⟨next, state', hCall, hAnswer, rfl, rfl⟩ := hExec
      have hServes : Serves state ⟨command, [⟨.installLease, false⟩], reply⟩ state' := by
        rw [Serves, hCall]
        refine .step ?_
        rw [hAnswer]
        exact .refl _
      obtain ⟨-, rfl⟩ := (serves_refused_iff hRefused).mp hServes
      cases yielded with
      | borrowReply h received => cases h
      | consumeReply hClient received =>
          obtain ⟨rfl, rfl⟩ := Client.awaiting.inj hClient
          have hQueue : s.queue = [] := by
            cases hQueue : s.queue with
            | nil => rfl
            | cons entry queue =>
                have hLt := h.queue_lt (hQueue ▸ List.mem_cons_self)
                rw [System.sending, hQueue] at queued
                obtain ⟨rfl, -⟩ := List.cons.inj queued
                exact absurd hLt (Nat.lt_irrefl _)
          rw [System.sending, hQueue] at queued
          obtain ⟨-, rfl⟩ := List.cons.inj queued
          exact ⟨_, hWorker, hQueue, ⟨by rw [hHandle]; rfl, rfl, rfl⟩, rfl⟩

theorem Quiet.unanswered (h : Quiet handle state s) (run : Run (Step opening) .init₀ history s)
    (hTicket : s.sent ≤ ticket) : s.replies ticket = none := by
  obtain ⟨done, flight, hPipeline⟩ := Pipeline.of_run run
  have hFlight : flight.map Prod.snd = [] := by
    rw [← hPipeline.queue_commands, h.queue]
    rfl
  obtain rfl := List.map_eq_nil_iff.mp hFlight
  have hCount := hPipeline.count_eq
  rw [List.length_nil] at hCount
  exact hPipeline.unanswered ticket (by omega)

theorem Quiet.of_same {k k' : Nat} (h : Quiet handle state s) (hSame : s.Same k k' t) :
    Quiet handle state t where
  client := hSame.client_eq rfl h.client
  worker := hSame.worker_eq rfl h.worker
  queue := by
    obtain ⟨queue, hQueue, hQueue'⟩ := hSame.queue
    rw [h.queue] at hQueue
    rw [hQueue', List.map_eq_nil_iff.mp hQueue.symm]
    rfl

/-- The commands that were sent before are served as if nothing had been sent after them. -/
theorem attempt_run (before : Run (Step opening) .init₀ history s) (hClient : s.client = .holding handle)
    (hRefused : command.RefusedBy reply) (hHandle : future.handle reply = some handle)
    (hServing : ∀ l ∈ earlier, l.Serving)
    (run : Run (Step opening) (s.sending future command) (earlier ++ refusal command ticket reply) t) :
    ∃ u state, Run (Step opening) s earlier u ∧ Quiet handle state u ∧ Quiet handle state t ∧
      t.init = u.init := by
  induction earlier generalizing history s with
  | nil =>
      obtain ⟨done, flight, h⟩ := Pipeline.of_run before
      obtain ⟨state, hWorker, hQueue, hAfter, hInit⟩ := refusal_run h hRefused hHandle run
      exact ⟨s, state, .refl, ⟨hClient, hWorker, hQueue⟩, hAfter, hInit⟩
  | cons l earlier ih =>
      obtain ⟨s₁, step, rest⟩ := run.of_cons
      have hRest : ∀ l ∈ earlier, l.Serving := fun l hMem => hServing l (List.mem_cons_of_mem _ hMem)
      rcases step.before_sending (hServing l List.mem_cons_self) with ⟨s', step', hSame, rfl⟩ | ⟨-, hEmpty⟩
      · obtain ⟨u, state, run', hQuiet⟩ := ih (before.snoc step') (hSame.trans hClient) hRest rest
        exact ⟨u, state, .cons step' run', hQuiet⟩
      · exact absurd hEmpty (no_execute rest hRest)

/-- With nothing in flight, facades agree but for the numbers of their commands. -/
theorem Quiet.same (hs : Quiet handle state s) (ht : Quiet handle state t) (hInit : s.init = t.init)
    (run : Run (Step opening) .init₀ history s) (run' : Run (Step opening) .init₀ earlier t) :
    System.Same s.sent t.sent s t where
  client := by
    rw [hs.client, ht.client]
    exact .plain rfl
  worker := by
    rw [hs.worker, ht.worker]
    exact .plain rfl
  queue := ⟨[], hs.queue, ht.queue⟩
  sent := ⟨0, rfl, rfl⟩
  init := hInit
  replies n := by
    rw [hs.unanswered run (Nat.le_add_right _ _), ht.unanswered run' (Nat.le_add_right _ _)]

/-- A run with refused operations is a run without them. -/
theorem erase_refused {short long : List Label} (h : Erased short long) {before before' : List Label}
    {k k' : Nat} (reached : Run (Step opening) .init₀ before s)
    (reached' : Run (Step opening) .init₀ before' s') (hSame : s.Same k k' s')
    (run : Run (Step opening) s' long t) :
    ∃ later u k k', Run (Step opening) s later u ∧ shape later = short ∧ u.Same k k' t := by
  induction h generalizing before before' k k' s s' with
  | nil =>
      obtain rfl := run.of_nil
      exact ⟨[], s, k, k', .refl, rfl, hSame⟩
  | keep l rest ih =>
      obtain ⟨s₁', step, after⟩ := run.of_cons
      obtain ⟨l', s₁, hLabel, step', hNext⟩ := step.same hSame.symm
      obtain ⟨later, u, m, m', run', hShape, hFinal⟩ :=
        ih (reached.snoc step') (reached'.snoc step) hNext.symm after
      refine ⟨l' :: later, u, m, m', .cons step' run', ?_, hFinal⟩
      rw [← hShape, ← hLabel.unnumbered]
      rfl
  | @attempt op command reply ticket earlier short long refused serving rest ih =>
      obtain ⟨s₁, run, after⟩ := run.of_append
      obtain ⟨s₀, sent, attempt⟩ := @Run.of_cons _ _ _ _ _ _ _ run
      obtain ⟨handle, future, hClient, hHandle, rfl⟩ := sent.refused refused
      obtain ⟨u', state, served, hBefore, hAfter, hInit⟩ :=
        attempt_run reached' hClient refused hHandle serving attempt
      obtain ⟨served', u, hServed, run', hSame'⟩ := run_same hSame.symm served
      have hQuiet : Quiet handle state u := hBefore.of_same hSame'
      have hBase := hQuiet.same hAfter (hSame'.init.symm.trans hInit.symm) (reached.trans run')
        (reached'.trans run)
      obtain ⟨later, v, m, m', run'', hShape, hFinal⟩ :=
        ih (reached.trans run') (reached'.trans run) hBase after
      refine ⟨served' ++ later, v, m, m', run'.trans run'', ?_, hFinal⟩
      rw [shape_append, hServed, hShape]

/-! ### Runs with one more attempt -/

theorem Step.sending (step : Step opening s l t) (hServing : l.Serving) :
    Step opening (s.sending future command) l (t.sending future command) ∧ t.client = s.client := by
  cases step
  case openCall hWorker => exact ⟨.openCall hWorker, rfl⟩
  case executeCall hWorker => exact ⟨.executeCall hWorker, rfl⟩
  case dropCall hWorker => exact ⟨.dropCall hWorker, rfl⟩
  case answer hWorker => exact ⟨.answer hWorker, rfl⟩
  case take state ticket taken rest hWorker queued =>
    have hQueue : (s.sending future command).queue = (ticket, taken) :: (rest ++ [(s.sent, command)]) := by
      rw [System.sending, queued]
      rfl
    exact ⟨.take hWorker hQueue, rfl⟩
  all_goals cases hServing

theorem serving_sending (run : Run (Step opening) s earlier t) (hServing : ∀ l ∈ earlier, l.Serving) :
    Run (Step opening) (s.sending future command) earlier (t.sending future command) ∧
      t.client = s.client := by
  induction run with
  | refl => exact ⟨.refl, rfl⟩
  | snoc run step ih =>
      obtain ⟨run', hClient⟩ := ih fun l hMem => hServing l (List.mem_append_left _ hMem)
      obtain ⟨step', hSame⟩ := step.sending (hServing _ (List.mem_append_right _ List.mem_cons_self))
      exact ⟨run'.snoc step', hSame.trans hClient⟩

omit [Platform] in
theorem Handle.Matches.takes (hMatches : handle.Matches state) (hOp : op.TakesProgress)
    (hSends : handle.consumed op = some (command, future)) :
    state.Takes command ∧ ∃ reply, command.RefusedBy reply ∧ future.handle reply = some handle := by
  cases hOp with
  | shutdown options callback =>
      cases callback <;> cases hMatches <;> cases hSends
      exact ⟨trivial, _, .shutdown options, rfl⟩
  | restart callback =>
      cases callback <;> cases hMatches <;> cases hSends
      exact ⟨Option.some_ne_none _, _, .restart, rfl⟩

theorem executes_refusal (hRefused : command.RefusedBy reply) (hTakes : state.Takes command) :
    ∃ next, executeCommand command state = .call .installLease next ∧
      next false = .done (.ok reply, state) := by
  have hServes := (@serves_refused_iff _ _ state _ _ hRefused).mpr ⟨hTakes, rfl⟩
  rw [Serves] at hServes
  generalize executeCommand command state = p at hServes
  cases hServes with
  | @step _ next _ _ _ rest =>
      refine ⟨next, rfl, ?_⟩
      generalize next false = q at rest
      cases rest with
      | refl => rfl

/-- An operation can be sent and refused wherever the client has its method. -/
theorem insert_refused (before : Run (Step opening) .init₀ history s)
    (hClient : s.client = .holding handle) (hOp : op.TakesProgress)
    (hSends : handle.consumed op = some (command, future)) (run : Run (Step opening) s earlier u)
    (hServing : ∀ l ∈ earlier, l.Serving) (hWorker : u.worker = .idle state) (hQueue : u.queue = []) :
    ∃ reply t, command.RefusedBy reply ∧
      Run (Step opening) s (.send op command :: earlier ++ refusal command u.sent reply) t ∧
      Quiet handle state t ∧ u.Same u.sent t.sent t := by
  obtain ⟨run', hSame⟩ := @serving_sending _ _ _ _ _ command future run hServing
  have hQuiet : Quiet handle state u := ⟨hSame.trans hClient, hWorker, hQueue⟩
  obtain ⟨done, flight, h⟩ := Pipeline.of_run before
  have hAlive : s.worker ≠ .terminated := by
    have hOwns : s.client.Owns := by rw [hClient]; trivial
    rcases h.coupled.served hOwns with ⟨state, hServed⟩ | ⟨ticket, command, rest, hServed⟩
    · simp [hServed]
    · simp [hServed]
  have hMatches : handle.Matches state := by
    obtain ⟨done', flight', h'⟩ := Pipeline.of_run (before.trans run)
    have hReach : Reaches u.worker (u.queue.map Prod.snd) state := by
      rw [hWorker, hQueue]
      exact .idle
    obtain ⟨last, hFits⟩ := h'.reaches hReach
    rwa [hQuiet.client] at hFits
  obtain ⟨hTakes, reply, hRefused, hHandle⟩ := hMatches.takes hOp hSends
  obtain ⟨next, hCall, hAnswer⟩ := executes_refusal hRefused hTakes
  have hQueued : (u.sending future command).queue = [(u.sent, command)] := by
    rw [System.sending, hQueue]
    rfl
  have attempt : ∃ t, Run (Step opening) s
      (.send op command :: earlier ++ refusal command u.sent reply) t ∧ Quiet handle state t ∧
      t.init = u.init := by
    have taken := @Step.take _ opening (u.sending future command) _ _ _ _ hWorker hQueued
    rw [hCall] at taken
    have refused := Run.cons taken <| .cons (@Step.executeCall _ _ _ _ _ _ _ false rfl) <|
      .cons (.answer (congrArg _ hAnswer)) <| .cons (.consumeReply rfl (Function.update_self ..)) .refl
    refine ⟨_, .cons (.consume hClient hSends hAlive) (run'.trans refused), ⟨?_, rfl, rfl⟩, rfl⟩
    rw [hHandle]
    rfl
  obtain ⟨t, attempt, hAfter, hInit⟩ := attempt
  exact ⟨reply, t, hRefused, attempt, hAfter,
    hQuiet.same hAfter hInit.symm (before.trans run) (before.trans attempt)⟩

/-! ### What is seen -/

theorem shape_calls (history : List Label) : calls (shape history) = calls history := by
  rw [calls, shape, List.filterMap_map]
  congr
  funext l
  cases l <;> rfl

theorem shape_yields (history : List Label) : yields (shape history) = yields history := by
  rw [yields, shape, List.filterMap_map]
  congr
  funext l
  cases l <;> rfl

theorem calls_append (first second : List Label) :
    calls (first ++ second) = calls first ++ calls second := List.filterMap_append

theorem yields_append (first second : List Label) :
    yields (first ++ second) = yields first ++ yields second := List.filterMap_append

/-- The refusals are not seen by Windows, and they show no outcome. -/
theorem Erased.seen {short long : List Label} (h : Erased short long) :
    nativeTrace (calls long) = nativeTrace (calls short) ∧
    (yields long).filterMap Reply.shutdown? = (yields short).filterMap Reply.shutdown? ∧
    (yields long).filterMap Reply.recovery? = (yields short).filterMap Reply.recovery? := by
  induction h with
  | nil => exact ⟨rfl, rfl, rfl⟩
  | @keep l short long rest ih =>
      obtain ⟨hTrace, hShutdowns, hRecoveries⟩ := ih
      change nativeTrace (calls ([l] ++ long)) = nativeTrace (calls (shape [l] ++ short)) ∧
        (yields ([l] ++ long)).filterMap Reply.shutdown? =
          (yields (shape [l] ++ short)).filterMap Reply.shutdown? ∧
        (yields ([l] ++ long)).filterMap Reply.recovery? =
          (yields (shape [l] ++ short)).filterMap Reply.recovery?
      simp only [calls_append, yields_append, nativeTrace_append, List.filterMap_append, shape_calls,
        shape_yields, hTrace, hShutdowns, hRecoveries, and_self]
  | @attempt op command reply ticket earlier short long refused serving rest ih =>
      obtain ⟨hTrace, hShutdowns, hRecoveries⟩ := ih
      have hCalls : nativeTrace (calls (.send op command :: earlier ++ refusal command ticket reply)) =
          nativeTrace (calls earlier) := by
        rw [calls_append, nativeTrace_append]
        exact List.append_nil _
      have hYields : yields (.send op command :: earlier ++ refusal command ticket reply) =
          yields earlier ++ [reply] := yields_append _ _
      have hSilent : reply.shutdown? = none ∧ reply.recovery? = none := by
        cases refused <;> exact ⟨rfl, rfl⟩
      rw [calls_append, yields_append, nativeTrace_append, hCalls, hYields]
      simp only [calls_append, yields_append, nativeTrace_append, List.filterMap_append, shape_calls,
        shape_yields, List.filterMap_cons, hSilent, List.filterMap_nil, List.append_nil, hTrace,
        hShutdowns, hRecoveries, and_self]

end

/-! ### Refused operations -/

/-- What a facade shows does not tell how the commands are numbered. -/
theorem System.Same.handle {k k' : Nat} {s s' : System} (h : s.Same k k' s') :
    s.client.handle? = s'.client.handle? := by
  have hClient := h.client
  generalize s.client = client, s'.client = client' at hClient
  cases hClient <;> rfl

end Tokio

/-- Operations with progress are refused exactly when the lease is not
installed, and runs with refused attempts are runs without them. -/
structure RefusedOperations [Platform] : Prop where
  shutdown : ∀ (session : RestartSession) options callback,
    RefusesExactly (session.shutdownWithProgress options callback).run
      (fun result => ∃ error, result = .ok (.error error))
      (.ok (.error ⟨session, callbackInUseError⟩))
  restart : ∀ core shutdown callback,
    RefusesExactly ((RestartPending.mk (some core) (some shutdown)).restartWithProgress callback).run
      (fun result => ∃ error, result = .ok (.error error))
      (.ok (.error ⟨⟨some core, some shutdown⟩, callbackInUseError⟩))
  /-- The worker keeps its typestate, and the future hands its handle back. -/
  futures : ∀ (handle : Tokio.Handle) state op command future, handle.Matches state →
    op.TakesProgress → handle.consumed op = some (command, future) → ∃ reply,
      RefusesExactly (Tokio.executeCommand command state) future.HandsBack (.ok reply, state) ∧
      future.handle reply = some handle
  erased : ∀ history value, Life history value → ∀ short long value',
    Inserted RefusedAttempt short long → Run Performs value long value' →
      Run Performs value short value' ∧ seenTrace long = seenTrace short ∧
      seenOutcomes long = seenOutcomes short ∧ seenRecoveries long = seenRecoveries short
  /-- Attempts can be made at any point of a run. -/
  inserted : ∀ history value, Life history value → ∀ short long value',
    Detours Performs Refuses value short long value' →
      Run Performs value short value' ∧ Run Performs value long value'
  facade_erased : ∀ short long s, Run (Tokio.Step .primary) .init₀ long s →
    Tokio.Erased short long → ∃ history t, Run (Tokio.Step .primary) .init₀ history t ∧
      Tokio.shape history = short ∧
      nativeTrace (Tokio.calls history) = nativeTrace (Tokio.calls long) ∧
      t.client.handle? = s.client.handle? ∧
      Tokio.shownShutdowns history t = Tokio.shownShutdowns long s ∧
      Tokio.shownRecoveries history t = Tokio.shownRecoveries long s
  /-- An attempt can be made wherever the client has its method, also while the
  worker serves earlier commands, and what follows is as without it. -/
  facade_inserted : ∀ history s handle op command future earlier u state,
    Run (Tokio.Step .primary) .init₀ history s → s.client = .holding handle → op.TakesProgress →
    handle.consumed op = some (command, future) → Run (Tokio.Step .primary) s earlier u →
    (∀ l ∈ earlier, l.Serving) → u.worker = .idle state → u.queue = [] →
      ∃ reply t, Run (Tokio.Step .primary) s
          (.send op command :: earlier ++ Tokio.refusal command u.sent reply) t ∧
        command.RefusedBy reply ∧ t.client = .holding handle ∧
        ∀ later v, Run (Tokio.Step .primary) u later v → ∃ later' v',
          Run (Tokio.Step .primary) t later' v' ∧ Tokio.shape later' = Tokio.shape later ∧
          v'.client.handle? = v.client.handle?

/-- A refused progress operation leaves no trace. -/
theorem refused_operations [Platform] : RefusedOperations where
  shutdown := shutdownWithProgress_refuses
  restart := restartWithProgress_refuses
  futures _ _ _ _ _ := Tokio.consumed_refuses
  erased history value life short long value' hInserted run :=
    ⟨erase_refusedAttempts hInserted ⟨_, life.fits.2⟩ run, inserted_seen hInserted⟩
  inserted history value life short long value' hDetours :=
    ⟨hDetours.short_run, insert_refusedAttempts hDetours ⟨_, life.fits.2⟩⟩
  facade_erased short long s run hErased := by
    have hSame : Tokio.System.init₀.Same 0 0 .init₀ :=
      ⟨.plain rfl, .plain rfl, ⟨[], rfl, rfl⟩, ⟨0, rfl, rfl⟩, rfl, fun _ => rfl⟩
    obtain ⟨history, t, k, k', run', hShape, hFinal⟩ := Tokio.erase_refused hErased .refl .refl hSame run
    obtain ⟨hTrace, hShutdowns, hRecoveries⟩ := hErased.seen
    rw [← hShape, Tokio.shape_calls] at hTrace
    rw [← hShape, Tokio.shape_yields] at hShutdowns hRecoveries
    refine ⟨history, t, run', hShape, hTrace.symm, hFinal.handle, ?_, ?_⟩
    · rw [Tokio.shownShutdowns, Tokio.shownShutdowns, hShutdowns, hFinal.handle]
    · rw [Tokio.shownRecoveries, Tokio.shownRecoveries, hRecoveries, hFinal.handle]
  facade_inserted history s handle op command future earlier u state before hClient hOp hSends run
      hServing hWorker hQueue := by
    obtain ⟨reply, t, hRefused, attempt, hQuiet, hSame⟩ :=
      Tokio.insert_refused before hClient hOp hSends run hServing hWorker hQueue
    refine ⟨reply, t, attempt, hRefused, hQuiet.client, ?_⟩
    intro later v run'
    obtain ⟨later', v', hShape, run'', hFinal⟩ := Tokio.run_same hSame run'
    exact ⟨later', v', run'', hShape, hFinal.handle.symm⟩

end RestartManager
