import RestartManager.Tokio.Ownership
import RestartManager.Tokio.Pipeline

/-! The facade refines the blocking API: the native calls of its worker, the
replies of its futures and the types of its handles are those of the blocking
program with the same operations. -/
namespace RestartManager

open Interaction Contract Program Transition

namespace Tokio

section

variable [Platform]

/-- The handle that the client holds, also while a future borrows it. -/
def Client.handle? : Client → Option Handle
  | .holding handle => some handle
  | .borrowing handle _ => some handle
  | _ => none

/-- A client has its handle while it holds it or a future borrows it. -/
theorem Client.handle?_eq_some {client : Client} {handle : Handle} (h : client.handle? = some handle) :
    client = .holding handle ∨ ∃ ticket, client = .borrowing handle ticket := by
  unfold Client.handle? at h
  split at h
  all_goals cases h
  · exact .inl rfl
  · exact .inr ⟨_, rfl⟩

/-- The typestates that the worker can reach by executing these commands. -/
inductive Reaches : WorkerPhase → List Command → WorkerState → Prop
  | idle {state : WorkerState} : Reaches (.idle state) [] state
  | take {state final : WorkerState} {ticket : Nat} {command : Command} {rest : List Command}
      (h : Reaches (.executing ticket command (executeCommand command state)) rest final) :
      Reaches (.idle state) (command :: rest) final
  | execute {state final : WorkerState} {ticket : Nat} {command : Command} {rest : List Command}
      {p : Native (Except Payload Reply × WorkerState)} {trace : Trace} {reply : Reply}
      (run : p.Exec trace (.ok reply, state)) (h : Reaches (.idle state) rest final) :
      Reaches (.executing ticket command p) rest final

/-- What holds in every state of the facade. The operations are numbered in the
order in which their commands were sent. -/
structure Refinement (opening : Opening) (history : List Label) (s : System) : Prop where
  /-- The worker makes the native calls of the blocking program. -/
  trace : BlockingTrace opening (((sent history).map Prod.fst).take (executed history).length)
    (released history) (calls history)
  /-- What a future yields is what the blocking method returns. -/
  replies : ∀ first ticket reply second, history = first ++ .yield ticket reply :: second →
    ∃ trace value output, trace <+: calls first ∧
      Blocking opening (((sent first).map Prod.fst).take (ticket + 1)) trace value (some output) ∧
      reply.Carries value output
  /-- The handle matches the typestate after the commands in flight. -/
  handles : ∀ handle, s.client.handle? = some handle →
    (∃ state, Reaches s.worker (s.queue.map Prod.snd) state) ∧
    ∀ state, Reaches s.worker (s.queue.map Prod.snd) state → handle.Matches state
  /-- A future that took a handle builds the next one, unless it ended the session. -/
  rebuilt : ∀ future ticket reply, s.client = .awaiting future ticket →
    s.replies ticket = some reply →
    (∃ handle, future.handle reply = some handle) ∨ future = .endSession
  /-- No future yields the error for the wrong typestate. -/
  in_state : ∀ ticket reply, .yield ticket reply ∈ history → reply.error? ≠ some wrongState
  /-- Only the thread itself may be unavailable, and then nothing was begun. -/
  available : ∀ first second, history = first ++ .unavailable :: second →
    calls first = [] ∧ sent first = []

/-- What holds besides where the client polls the futures that it owns. -/
structure PolledRefinement (opening : Opening) (history : List ObjectLabel) (o : Objects) : Prop where
  facade : Refinement opening (facadeLabels history) o.system
  /-- A future that waits has the fields that its method built it with. -/
  fields : ∀ future ticket, o.system.client = .awaiting future ticket → o.live = future.object
  /-- Its poll is pending until the reply is there or its sender dropped. What
  it then yields leaves the client with what the facade's step leaves it. -/
  polls : ∀ future ticket object received result object', o.live = some object →
    o.system.client = .awaiting future ticket → o.Receives ticket received →
    object.poll received = some (result, object') →
    (received = .pending ∧ result = .ok .pending ∧ object' = object) ∨
      ∃ yielded, result = .ok (.ready yielded) ∧
        Step opening o.system (yieldLabel ticket received) { o.system with client := resumed yielded }
  no_panic : ∀ payload, .panicked payload ∉ history

section

variable {opening : Opening} {history : List Label} {s t : System} {l : Label}
  {done flight : List (Op × Command)}

/-! ### The trace -/

/-- At each stage the calls so far are those of the blocking program. -/
theorem Stage.trace {final : Option Reply → WorkerState → Prop} {last : Option Reply} {m : Monitor}
    {worker : WorkerPhase} {trace : Trace} {flag : Bool}
    (h : Stage opening final last m worker done flight trace flag) :
    BlockingTrace opening (done.map Prod.fst) flag trace := by
  cases h with
  | absent fresh => exact .opening (.refl _)
  | opening begun related allowed => exact .opening begun
  | opened begun matched fits => exact .idle begun
  | idle before inFlight fits => exact .idle before
  | executing before method run related allowed =>
      rw [List.map_append]
      exact .performing before method run
  | dropping before run allowed => exact .releasing before run
  | failed begun closed => exact .opening begun
  | terminated before run closed => exact .releasing before run

/-- The operations that were begun are the first ones sent. -/
theorem Pipeline.begun (h : Pipeline opening history s done flight) :
    ((sent history).map Prod.fst).take (executed history).length = done.map Prod.fst := by
  rw [h.sent_eq, h.executed_eq, List.map_append, List.length_map,
    List.take_left' (List.length_map _)]

/-! ### Handles -/

/-- The commands in flight lead where the last reply says. -/
theorem InFlight.reaches {final : Option Reply → WorkerState → Prop} {last : Option Reply}
    {state state' : WorkerState} (h : InFlight final flight last state)
    (hReach : Reaches (.idle state) (flight.map Prod.snd) state') : ∃ last', final last' state' := by
  induction flight generalizing last state with
  | nil =>
      cases hReach
      exact ⟨last, h⟩
  | cons pair rest ih =>
      obtain ⟨-, p, method, related⟩ := h
      cases hReach with
      | take hReach =>
          cases hReach with
          | execute run hReach =>
              obtain ⟨result, -, reply, hAnswers, hRest⟩ := related.exec run
              exact ih hRest hReach

/-- Wherever the commands in flight lead, what the client owns fits. -/
theorem Pipeline.reaches (h : Pipeline opening history s done flight) {state : WorkerState}
    (hReach : Reaches s.worker (s.queue.map Prod.snd) state) :
    ∃ last, s.client.Fits s.init last state := by
  have hStage := h.stage
  rw [h.queue_commands] at hReach
  generalize s.worker = worker at hStage hReach
  generalize calls history = trace, released history = flag at hStage
  cases hStage with
  | idle before inFlight fits => exact inFlight.reaches hReach
  | executing before method run related allowed =>
      cases hReach with
      | execute exec hReach =>
          obtain ⟨result, -, reply, hAnswers, hRest⟩ := related.exec exec
          exact hRest.reaches hReach
  | _ => cases hReach

/-- Every native call can be answered, so a command is executed to its reply. -/
theorem reaches_executing {P : Reply → WorkerState → Prop} {q : Native (Value × Output)}
    {rest : Native (Except Payload Reply × WorkerState)} {ticket : Nat} {command : Command}
    {commands : List Command}
    (related : Related (fun result answer => ∃ reply, Answers result answer reply ∧
      P reply answer.2) q rest)
    (hRest : ∀ reply state, P reply state → ∃ final, Reaches (.idle state) commands final) :
    ∃ final, Reaches (.executing ticket command rest) commands final := by
  obtain ⟨trace, ⟨outcome, state⟩, run⟩ :=
    exists_exec (fun c => Classical.choice (Call.answered c)) rest
  obtain ⟨result, -, reply, hAnswers, hP⟩ := related.exec run
  obtain rfl : outcome = .ok reply := hAnswers.replied
  obtain ⟨final, hReach⟩ := hRest reply state hP
  exact ⟨final, .execute run hReach⟩

/-- The commands in flight can always be worked off. -/
theorem InFlight.exists_reaches {final : Option Reply → WorkerState → Prop} {last : Option Reply}
    {state : WorkerState} (h : InFlight final flight last state) :
    ∃ state', Reaches (.idle state) (flight.map Prod.snd) state' := by
  induction flight generalizing last state with
  | nil => exact ⟨state, .idle⟩
  | cons pair rest ih =>
      obtain ⟨-, p, method, related⟩ := h
      obtain ⟨final, hReach⟩ := @reaches_executing _ _ _ _ 0 pair.2 _ related fun _ _ hRest => ih hRest
      exact ⟨final, .take hReach⟩

/-- The queue can be worked off from every phase that serves. -/
theorem Pipeline.exists_reaches (h : Pipeline opening history s done flight)
    (hServed : (∃ state, s.worker = .idle state) ∨
      ∃ ticket command rest, s.worker = .executing ticket command rest) :
    ∃ state, Reaches s.worker (s.queue.map Prod.snd) state := by
  have hStage := h.stage
  rw [h.queue_commands]
  generalize s.worker = worker at hStage hServed
  generalize calls history = trace, released history = flag at hStage
  cases hStage with
  | idle before inFlight fits => exact inFlight.exists_reaches
  | executing before method run related allowed =>
      exact reaches_executing related fun _ _ hRest => hRest.exists_reaches
  | _ => simp at hServed

/-! ### Replies -/

/-- The blocking program returned what this reply carries. -/
def Returned (opening : Opening) (history : List Label) (ticket : Nat) (reply : Reply) : Prop :=
  (∃ trace value output, trace <+: calls history ∧
    Blocking opening (((sent history).map Prod.fst).take (ticket + 1)) trace value (some output) ∧
    reply.Carries value output) ∧
  ∀ error, reply.error? = some error → error.InSequence

/-- A reply stays the one of its operation as the history grows. -/
theorem Returned.snoc {ticket : Nat} {reply : Reply} (h : Returned opening history ticket reply)
    (hTicket : ticket < (sent history).length) : Returned opening (history ++ [l]) ticket reply := by
  obtain ⟨⟨trace, value, output, hPrefix, hBlocking, hCarries⟩, hSequence⟩ := h
  refine ⟨⟨trace, value, output, ?_, ?_, hCarries⟩, hSequence⟩
  · rw [calls_snoc]
    exact hPrefix.trans (List.prefix_append _ _)
  · rw [sent_snoc, List.map_append, List.take_append_of_le_length]
    · exact hBlocking
    · rw [List.length_map]
      exact hTicket

/-- Only the answer to a command adds a reply. -/
theorem Step.replies (step : Step opening s l t) : t.replies = s.replies ∨
    ∃ ticket command reply state,
      s.worker = .executing ticket command (.done (.ok reply, state)) ∧
      l = .answer ticket reply ∧ t.replies = Function.update s.replies ticket (some reply) := by
  cases step
  case answer h => exact .inr ⟨_, _, _, _, h, rfl, rfl⟩
  all_goals exact .inl rfl

/-- The worker replies what the blocking operation returned. -/
theorem Pipeline.returned (h : Pipeline opening history s done flight) {ticket : Nat}
    {command : Command} {reply : Reply} {state : WorkerState}
    (hWorker : s.worker = .executing ticket command (.done (.ok reply, state))) :
    Returned opening history ticket reply ∧ ticket < (sent history).length := by
  have hStage := h.stage
  have hSent := h.sent_eq
  rw [hWorker] at hStage
  generalize hCalls : calls history = trace, released history = flag at hStage
  cases hStage with
  | executing before method run related allowed =>
      cases related with
      | done hAnswer =>
          obtain ⟨reply', hAnswers, -⟩ := hAnswer
          obtain rfl : reply = reply' := Except.ok.inj hAnswers.replied
          refine ⟨⟨⟨_, _, _, List.prefix_rfl, ?_, hAnswers.carries⟩, hAnswers.inSequence⟩, ?_⟩
          · rw [hCalls, hSent, List.map_append, List.take_left' (by simp), List.map_append]
            exact .perform before method run
          · rw [hSent]
            simp

/-- Every reply of a run is what its operation returned in the blocking program. -/
theorem Returned.of_run (run : Run (Step opening) .init₀ history s) {ticket : Nat} {reply : Reply}
    (hReply : s.replies ticket = some reply) :
    Returned opening history ticket reply ∧ ticket < (sent history).length := by
  induction run generalizing ticket reply with
  | refl => cases hReply
  | @snoc history s t l run step ih =>
      obtain ⟨done, flight, h⟩ := Pipeline.of_run run
      have hSnoc {ticket : Nat} {reply : Reply}
          (hOld : Returned opening history ticket reply ∧ ticket < (sent history).length) :
          Returned opening (history ++ [l]) ticket reply ∧ ticket < (sent (history ++ [l])).length := by
        refine ⟨hOld.1.snoc hOld.2, ?_⟩
        rw [sent_snoc, List.length_append]
        exact Nat.lt_add_right _ hOld.2
      rcases step.replies with hSame | ⟨ticket', command, reply', state, hWorker, -, hUpdate⟩
      · rw [hSame] at hReply
        exact hSnoc (ih hReply)
      · rw [hUpdate] at hReply
        by_cases hTicket : ticket = ticket'
        · subst hTicket
          rw [Function.update_self, Option.some.injEq] at hReply
          subst hReply
          exact hSnoc (h.returned hWorker)
        · rw [Function.update_of_ne hTicket] at hReply
          exact hSnoc (ih hReply)

/-- A future yields the reply of its own command. -/
theorem yield_returned {first second : List Label} {ticket : Nat} {reply : Reply}
    (run : Run (Step opening) .init₀ (first ++ .yield ticket reply :: second) s) :
    Returned opening first ticket reply := by
  obtain ⟨t, t', before, here, -⟩ := run.split
  generalize hLabel : Label.yield ticket reply = l at here
  cases here
  case borrowReply received =>
    cases hLabel
    exact (Returned.of_run before received).1
  case consumeReply received =>
    cases hLabel
    exact (Returned.of_run before received).1
  all_goals cases hLabel

/-! ### Availability -/

/-- The worker is unavailable only when its thread cannot be created. -/
theorem Pipeline.available (h : Pipeline opening history s done flight)
    (step : Step opening s .unavailable t) : calls history = [] ∧ sent history = [] := by
  obtain ⟨hPhase, hTicket⟩ := h.coupled
  generalize hLabel : Label.unavailable = l at step
  cases step
  case spawnFailed hClient =>
    have hStage := h.stage
    have hSent := h.sent_eq
    generalize s.worker = worker at hStage hPhase
    generalize calls history = trace, released history = flag at hStage ⊢
    cases hStage with
    | absent fresh => exact ⟨rfl, hSent⟩
    | _ => simp [hClient] at hPhase
  case openedNothing hClient empty terminated =>
    rw [terminated] at hPhase
    simp [hClient, empty] at hPhase
  case borrowFailed hClient method terminated =>
    rw [terminated] at hPhase
    simp [hClient] at hPhase
  case borrowLost hClient empty terminated =>
    rw [terminated] at hPhase
    simp [hClient] at hPhase
  case consumeFailed hClient method terminated =>
    rw [terminated] at hPhase
    simp [hClient] at hPhase
  case consumeLost hClient empty terminated =>
    rw [terminated] at hPhase
    simp [hClient] at hPhase
  all_goals cases hLabel

/-- The worker makes the native calls of a blocking program. -/
theorem blockingTrace_of_run (run : Run (Step opening) .init₀ history s) :
    BlockingTrace opening (((sent history).map Prod.fst).take (executed history).length)
      (released history) (calls history) := by
  obtain ⟨done, flight, h⟩ := Pipeline.of_run run
  rw [h.begun]
  exact h.stage.trace

/-- The clauses that concern the steps of the worker and its client. -/
theorem Refinement.of_run (run : Run (Step opening) .init₀ history s) :
    Refinement opening history s := by
  obtain ⟨done, flight, h⟩ := Pipeline.of_run run
  constructor
  case trace =>
    rw [h.begun]
    exact h.stage.trace
  case replies =>
    rintro first ticket reply second rfl
    exact (yield_returned run).1
  case handles =>
    intro handle hHandle
    have hClient := Client.handle?_eq_some hHandle
    refine ⟨h.exists_reaches (h.coupled.served ?_), ?_⟩
    · rcases hClient with hClient | ⟨ticket, hClient⟩
      · rw [hClient]
        trivial
      · rw [hClient]
        trivial
    · intro state hReach
      obtain ⟨last, hFits⟩ := h.reaches hReach
      rcases hClient with hClient | ⟨ticket, hClient⟩
      · rw [hClient] at hFits
        exact hFits
      · rw [hClient] at hFits
        exact hFits
  case rebuilt =>
    intro future ticket reply hClient hReply
    obtain ⟨state, -, hResolves⟩ := h.resolves hClient hReply
    rcases hResolves with ⟨handle, hHandle, -⟩ | ⟨hFuture, -⟩
    · exact .inl ⟨handle, hHandle⟩
    · exact .inr hFuture
  case in_state =>
    intro ticket reply hMem hError
    obtain ⟨first, second, rfl⟩ := List.append_of_mem hMem
    exact (yield_returned run).2 wrongState hError rfl
  case available =>
    rintro first second rfl
    obtain ⟨t, t', before, here, -⟩ := run.split
    obtain ⟨done, flight, h⟩ := Pipeline.of_run before
    exact h.available here

/-- In every run of the facade, for any native results and any polls. -/
theorem refinement :
    (∀ history s, Run (Step opening) .init₀ history s → Refinement opening history s) ∧
    ∀ history o, Run (ObjectStep opening) .init₀ history o → PolledRefinement opening history o := by
  refine ⟨fun history s run => .of_run run, fun history o run => ?_⟩
  obtain ⟨hIntact, hRun, -, hPanic⟩ := facade_of_run run
  refine ⟨.of_run hRun, hIntact.live, ?_, hPanic⟩
  intro future ticket object received result object' live client receives hPoll
  have built := hIntact.object live client
  rcases @polled _ opening _ _ _ _ _ _ _ built receives hPoll with hPending | ⟨yielded, hResult, -, hStep⟩
  · exact .inl hPending
  · exact .inr ⟨yielded, hResult, hStep client⟩

end

end

section

attribute [local instance] Platform.driveLetters

/-- A shutdown is refused, and its session is ended instead. -/
def refusedShutdown : List Label :=
  [.silent, .call ⟨.rmStartSession, ⟨ERROR_SUCCESS, 3, zeroKey⟩⟩, .silent, .silent, .silent,
    .send (.shutdownWithProgress {} .watch) (.shutdownWithProgress {}),
    .execute (.shutdownWithProgress {}), .call ⟨.installLease, false⟩,
    .answer 0 (.shutdown (.recoverable (mapSysError .callbackInUse))),
    .yield 0 (.shutdown (.recoverable (mapSysError .callbackInUse))), .send .endSession .endPrimary,
    .execute .endPrimary, .call ⟨.rmEndSession 3, ERROR_SUCCESS⟩, .answer 1 (.done (.ok ())),
    .yield 1 (.done (.ok ())), .cleanup, .silent]

/-- Its future is polled before the reply is there, and once it is. -/
def refusedPolls : List ObjectLabel :=
  (refusedShutdown.take 6).map .facade ++ .pending :: ((refusedShutdown.drop 6).take 4).map .facade ++
    .dropped :: (refusedShutdown.drop 10).map .facade

theorem refinement_refused : ∃ o, o.system.worker = .terminated ∧
    Refinement .primary refusedShutdown o.system ∧ PolledRefinement .primary refusedPolls o := by
  let core : SessionCore := ⟨⟨3, false⟩, ⟨List.replicate 32 0x30, by decide⟩⟩
  have run : ∃ o, Run (ObjectStep .primary) .init₀ refusedPolls o ∧ o.system.worker = .terminated := by
    apply Exists.intro
    constructor
    apply Run.cons (.facade (.spawn rfl) (.inr ⟨rfl, by simp⟩) (by simp))
    apply Run.cons (.facade (.openCall rfl) (.inl rfl) (by simp))
    apply Run.cons (.facade (@Step.openDone _ _ _ (.primary ⟨core⟩) _ rfl) (.inl rfl) (by simp))
    apply Run.cons (.facade (.initSent rfl rfl) (.inl rfl) (by simp))
    apply Run.cons (.facade (.openedHandle rfl rfl) (.inr ⟨rfl, by simp⟩) (by simp))
    apply Run.cons (.create (.consume rfl rfl (by simp)) rfl rfl)
    apply Run.cons (@ObjectStep.poll _ _ _ _ _ _ _ .pending rfl rfl ⟨rfl, by simp⟩ rfl)
    apply Run.cons (.facade (.take rfl rfl) (.inl rfl) (by simp))
    apply Run.cons (.facade (.executeCall rfl) (.inl rfl) (by simp))
    apply Run.cons (.facade (.answer rfl) (.inl rfl) (by simp))
    apply Run.cons (@ObjectStep.yield _ _ _ _ 0 _ _
      (.ready (.ok (.shutdown (.recoverable (mapSysError .callbackInUse))))) _ rfl rfl (by exact rfl) rfl)
    apply Run.cons (@ObjectStep.dropReady _ _ _ [] [] _ none rfl)
    apply Run.cons (.facade (.consume rfl rfl (by simp [Objects.setClient]))
      (.inr ⟨rfl, by simp [Future.object]⟩) (by simp))
    apply Run.cons (.facade (.take rfl rfl) (.inl rfl) (by simp))
    apply Run.cons (.facade (.executeCall rfl) (.inl rfl) (by simp))
    apply Run.cons (.facade (.answer rfl) (.inl rfl) (by simp))
    apply Run.cons (.facade (.consumeReply rfl rfl) (.inr ⟨rfl, by simp [Future.handle]⟩) (by simp))
    apply Run.cons (.facade (.disconnect rfl rfl rfl) (.inl rfl) fun _ _ _ => Objects.not_holdsSender rfl rfl)
    apply Run.cons (.facade (.terminate rfl) (.inl rfl) (by simp))
    exact .refl
    rfl
  obtain ⟨o, run, hWorker⟩ := run
  obtain ⟨-, hRun, -⟩ := facade_of_run run
  exact ⟨o, hWorker, refinement.1 _ _ hRun, refinement.2 _ _ run⟩

end

end Tokio
end RestartManager
