import RestartManager.Tokio.Erased

/-! What the facade can do. Whatever a caller of the blocking API does with the
methods that both have, a client of the facade that awaits each of its futures
does with the same native calls and the same results. -/
namespace RestartManager

open Interaction Program Transition

namespace Tokio

/-- The methods that both APIs have. The progress of the facade goes to a watch
channel, and its errors own the state that they give back. -/
def Offered : Op → Prop
  | .shutdownWithProgress _ callback | .restartWithProgress callback => callback = .watch
  | .intoParts | .dropValue => False
  | _ => True

/-- The methods that read an outcome. -/
def ReadsOutcome : Op → Prop
  | .shutdownOutcome | .outcome => True
  | _ => False

/-- A handle has the outcomes that it returns, and does not ask its worker. -/
def Handle.outcome : Handle → Op → Option Output
  | .pending shutdown, .shutdownOutcome => some (.shutdownOutcome shutdown)
  | .completion outcome, .outcome => some (.outcome outcome)
  | _, _ => none

section

variable [Platform]

/-- A blocking program of such methods, with what each of them left and
returned. It takes the state out of a refusal before it goes on. -/
inductive Scripted (opening : Opening) : List (Op × Value × Output) → Trace → Value → Prop
  | opened {trace : Trace} {value : Value} (run : opening.blocking.Exec trace (.ok value)) :
      Scripted opening [] trace value
  | perform {log : List (Op × Value × Output)} {trace later : Trace} {value value' : Value} {op : Op}
      {output : Output} {p : Native (Value × Output)} (before : Scripted opening log trace value)
      (offered : Offered op) (method : RestartManager.perform value op = some p)
      (run : p.Exec later (value', output)) :
      Scripted opening (log ++ [(op, value', output)]) (trace ++ later) (retained value')

/-- A client carries out a script: it awaits the future of each method that its
handle sends, and gets the outcomes from the handle itself. -/
inductive CarriesOut (opening : Opening) : List (Op × Value × Output) → List Label → System → Prop
  | opened {history : List Label} {s : System} (run : Run (Step opening) .init₀ history s)
      (unsent : sent history = []) : CarriesOut opening [] history s
  | awaits {log : List (Op × Value × Output)} {history later : List Label} {s t : System} {op : Op}
      {reply : Reply} {value : Value} {output : Output} (before : CarriesOut opening log history s)
      (run : Run (Step opening) s later t) (sends : (sent later).map Prod.fst = [op])
      (yielded : yields later = [reply]) (carries : reply.Carries value output) :
      CarriesOut opening (log ++ [(op, value, output)]) (history ++ later) t
  | reads {log : List (Op × Value × Output)} {history : List Label} {s : System} {op : Op}
      {handle : Handle} {value : Value} {output : Output} (before : CarriesOut opening log history s)
      (holds : s.client = .holding handle) (retained : handle.outcome op = some output) :
      CarriesOut opening (log ++ [(op, value, output)]) history s

/-- The client holds the handle of what the worker owns, and nothing is in flight. -/
structure Rests (s : System) (state : WorkerState) : Prop where
  worker : s.worker = .idle state
  queue : s.queue = []
  client : (∃ handle : Handle, s.client = .holding handle ∧ handle.Matches state) ∨
    s.client = .gone ∧ state = .empty

/-- What a stretch of a run shows of one facade. -/
structure Shows (history : List Label) (trace : Trace) (ops : List Op) (replies : List Reply) : Prop where
  calls : calls history = trace
  sent : (sent history).map Prod.fst = ops
  yields : yields history = replies

variable {opening : Opening} {s : System} {state state' : WorkerState} {trace : Trace}

namespace Shows

variable {first second : List Label} {trace' : Trace} {ops ops' : List Op} {replies replies' : List Reply}

theorem append (h : Shows first trace ops replies) (h' : Shows second trace' ops' replies') :
    Shows (first ++ second) (trace ++ trace') (ops ++ ops') (replies ++ replies') := by
  constructor
  · rw [calls_append, h.calls, h'.calls]
  · have hSent : Tokio.sent (first ++ second) = Tokio.sent first ++ Tokio.sent second :=
      List.filterMap_append
    rw [hSent, List.map_append, h.sent, h'.sent]
  · rw [yields_append, h.yields, h'.yields]

/-- The calls of the worker are all that its calls show. -/
theorem of_calls (trace : Trace) : Shows (trace.map .call) trace [] [] := by
  constructor
  · rw [Tokio.calls, List.filterMap_map]
    exact List.filterMap_some
  · rw [List.map_eq_nil_iff, Tokio.sent, List.filterMap_map]
    exact List.filterMap_eq_nil_iff.mpr fun _ _ => rfl
  · rw [Tokio.yields, List.filterMap_map]
    exact List.filterMap_eq_nil_iff.mpr fun _ _ => rfl

end Shows

/-! ### The worker -/

/-- In each phase of the worker, its native calls are steps of the system. -/
theorem run_calls {α : Type} (phase : Native α → WorkerPhase) {p q : Native α}
    (hStep : ∀ (s : System) (c : Call) (next : c.Response → Native α) (response : c.Response),
      s.worker = phase (.call c next) →
      Step opening s (.call ⟨c, response⟩) { s with worker := phase (next response) })
    (run : p.Steps trace q) (hWorker : s.worker = phase p) :
    Run (Step opening) s (trace.map .call) { s with worker := phase q } := by
  induction run generalizing s with
  | refl p =>
      rw [← hWorker]
      exact .refl
  | step rest ih => exact .cons (hStep _ _ _ _ hWorker) (ih rfl)

/-- A command is taken, carried out and answered. -/
theorem run_command {ticket : Nat} {command : Command} {reply : Reply} (hWorker : s.worker = .idle state)
    (hQueue : s.queue = [(ticket, command)])
    (run : (executeCommand command state).Exec trace (.ok reply, state')) :
    Run (Step opening) s (.execute command :: (trace.map .call ++ [.answer ticket reply])) { s with
      queue := []
      worker := .idle state'
      replies := Function.update s.replies ticket (some reply) } := by
  apply Run.cons (.take hWorker hQueue)
  exact (run_calls (.executing ticket command) (fun _ _ _ _ h => .executeCall h) run rfl).snoc (.answer rfl)

/-- The worker drops what it owns. -/
theorem run_drop (run : state.drop.Exec trace ()) (hWorker : s.worker = .dropping state.drop) :
    Run (Step opening) s (trace.map .call ++ [.silent]) { s with worker := .terminated } :=
  (run_calls .dropping (fun _ _ _ _ h => .dropCall h) run hWorker).snoc (.terminate rfl)

/-! ### One operation -/

/-- A handle sends each method that its typestate has. -/
theorem Handle.Matches.sends {handle : Handle} {op : Op} {p : Native (Value × Output)}
    (hMatches : handle.Matches state) (offered : Offered op) (hSent : ¬ReadsOutcome op)
    (method : perform state.value op = some p) : ∃ command, handle.Sends op command := by
  cases hMatches <;> cases op <;> try cases method
  all_goals try exact offered.elim
  all_goals try exact absurd trivial hSent
  all_goals try exact ⟨_, .inl rfl⟩
  all_goals try exact ⟨_, .inr ⟨_, rfl⟩⟩
  all_goals
    cases offered
    exact ⟨_, .inr ⟨_, rfl⟩⟩

section

variable {op : Op} {command : Command} {reply : Reply} {client : Client}

/-- A command is sent and answered. -/
theorem Rests.served (h : Rests s state)
    (step : Step opening s (.send op command) { s with
      client
      queue := s.queue ++ [(s.sent, command)]
      sent := s.sent + 1 })
    (run : (executeCommand command state).Exec trace (.ok reply, state')) :
    Run (Step opening) s (.send op command :: .execute command ::
      (trace.map .call ++ [.answer s.sent reply])) { s with
        client
        queue := []
        sent := s.sent + 1
        worker := .idle state'
        replies := Function.update s.replies s.sent (some reply) } := by
  have hQueue : s.queue ++ [(s.sent, command)] = [(s.sent, command)] := by
    rw [h.queue, List.nil_append]
  exact .cons step (run_command h.worker hQueue run)

theorem Shows.of_command {ticket : Nat} :
    Shows (.send op command :: .execute command :: (trace.map .call ++ [.answer ticket reply]) ++
      [.yield ticket reply]) trace [op] [reply] := by
  have hSent : Shows [.send op command, .execute command] [] [op] [] := ⟨rfl, rfl, rfl⟩
  have hYielded : Shows [.answer ticket reply, .yield ticket reply] [] [] [reply] := ⟨rfl, rfl, rfl⟩
  simpa using hSent.append ((Shows.of_calls trace).append hYielded)

end

/-- The client calls a method and awaits its future. -/
theorem Rests.perform {value' : Value} {op : Op} {output : Output} {p : Native (Value × Output)}
    (h : Rests s state) (offered : Offered op) (hSent : ¬ReadsOutcome op)
    (method : RestartManager.perform state.value op = some p) (run : p.Exec trace (value', output)) :
    ∃ history t state' reply,
      Run (Step opening) s history t ∧ Rests t state' ∧ state'.value = retained value' ∧
        Shows history trace [op] [reply] ∧ reply.Carries value' output := by
  rcases h.client with ⟨handle, hClient, hMatches⟩ | ⟨-, rfl⟩
  · have hAlive : s.worker ≠ .terminated := by simp [h.worker]
    have hReceived (reply : Reply) : Function.update s.replies s.sent (some reply) s.sent = some reply :=
      Function.update_self ..
    obtain ⟨command, hBorrows | ⟨future, hConsumes⟩⟩ := hMatches.sends offered hSent method
    · obtain ⟨p', method', related⟩ := borrowed_refines hMatches hBorrows
      cases method.symm.trans method'
      obtain ⟨⟨answer, state'⟩, served, reply, hAnswers, hState⟩ := related.symm.exec run
      cases hAnswers.replied
      obtain rfl : state' = state := hState
      have before : Run (Step opening) s _ _ := h.served (.borrow hClient hBorrows hAlive) served
      refine ⟨_, _, state', reply, before.snoc (.borrowReply rfl (hReceived reply)), ?_,
        hAnswers.retained.symm, .of_command, hAnswers.carries⟩
      exact ⟨rfl, rfl, .inl ⟨handle, rfl, hMatches⟩⟩
    · obtain ⟨p', method', related⟩ := consumed_refines hMatches hConsumes
      cases method.symm.trans method'
      obtain ⟨⟨answer, state'⟩, served, reply, hAnswers, hResolves⟩ := related.symm.exec run
      cases hAnswers.replied
      have before : Run (Step opening) s _ _ := h.served (.consume hClient hConsumes hAlive) served
      refine ⟨_, _, state', reply, before.snoc (.consumeReply rfl (hReceived reply)), ?_,
        hAnswers.retained.symm, .of_command, hAnswers.carries⟩
      refine ⟨rfl, rfl, ?_⟩
      rcases hResolves with ⟨handle', hHandle, hMatches'⟩ | ⟨rfl, rfl⟩
      · exact .inl ⟨handle', by rw [hHandle]; rfl, hMatches'⟩
      · exact .inr ⟨rfl, rfl⟩
  · cases op <;> cases method

/-- The client reads an outcome, and nothing is called. -/
theorem Rests.reads {value' : Value} {op : Op} {output : Output} {p : Native (Value × Output)}
    (h : Rests s state) (hReads : ReadsOutcome op)
    (method : RestartManager.perform state.value op = some p) (run : p.Exec trace (value', output)) :
    ∃ handle, s.client = .holding handle ∧ handle.outcome op = some output ∧ trace = [] ∧
      retained value' = state.value := by
  rcases h.client with ⟨handle, hClient, hMatches⟩ | ⟨-, rfl⟩
  · cases hMatches <;> cases op <;> first | exact hReads.elim | cases method
    all_goals
      obtain ⟨rfl, hResult⟩ := exec_done_iff.mp run
      cases hResult
      exact ⟨_, hClient, rfl, rfl, rfl⟩
  · cases op <;> cases method

/-! ### Whole programs -/

theorem rests_of_opened {value : Value} (run : opening.blocking.Exec trace (.ok value)) :
    ∃ history s state, Run (Step opening) .init₀ history s ∧ Rests s state ∧ state.value = value ∧
      Shows history trace [] [] := by
  obtain ⟨start, hStart, hResult, hMatches⟩ := opening.start_refines.symm.exec run
  cases start with
  | error error => cases hResult
  | ok opened =>
      obtain ⟨state, handle⟩ := opened
      cases hResult
      have spawned : Run (Step opening) .init₀ [.silent] _ := .cons (.spawn rfl) .refl
      have called := spawned.trans (run_calls .opening (fun _ _ _ _ h => .openCall h) hStart rfl)
      have done := ((called.snoc (.openDone rfl)).snoc (.initSent rfl rfl)).snoc (.openedHandle rfl rfl)
      have hShows : Shows [.silent, .silent, .silent] [] [] [] := ⟨rfl, rfl, rfl⟩
      have hSilent : Shows [.silent] [] [] [] := ⟨rfl, rfl, rfl⟩
      refine ⟨_, _, state, done, ⟨rfl, rfl, .inl ⟨handle, rfl, hMatches _ _ rfl⟩⟩, rfl, ?_⟩
      simpa using hSilent.append ((Shows.of_calls trace).append hShows)

theorem gone_of_unopened {error : Error} (run : opening.blocking.Exec trace (.error error)) :
    ∃ history s, Run (Step opening) .init₀ history s ∧ s.worker = .terminated ∧ s.client = .gone ∧
      s.init = some (.error error) ∧ Shows history trace [] [] := by
  obtain ⟨start, hStart, hResult, -⟩ := opening.start_refines.symm.exec run
  cases start with
  | ok opened => cases hResult
  | error error =>
      cases hResult
      have spawned : Run (Step opening) .init₀ [.silent] _ := .cons (.spawn rfl) .refl
      have called := spawned.trans (run_calls .opening (fun _ _ _ _ h => .openCall h) hStart rfl)
      have done := (called.snoc (.openFailed rfl)).snoc (.openedError rfl rfl)
      have hShows : Shows [.silent, .silent] [] [] [] := ⟨rfl, rfl, rfl⟩
      have hSilent : Shows [.silent] [] [] [] := ⟨rfl, rfl, rfl⟩
      refine ⟨_, _, done, rfl, rfl, rfl, ?_⟩
      simpa using hSilent.append ((Shows.of_calls trace).append hShows)

theorem rests_of_scripted {log : List (Op × Value × Output)} {value : Value}
    (h : Scripted opening log trace value) :
    ∃ history s state, Run (Step opening) .init₀ history s ∧ CarriesOut opening log history s ∧
      calls history = trace ∧ Rests s state ∧ state.value = value := by
  induction h with
  | opened run =>
      obtain ⟨history, s, state, opened, hRests, hValue, hShows⟩ := rests_of_opened run
      have hUnsent : sent history = [] := List.map_eq_nil_iff.mp hShows.sent
      exact ⟨history, s, state, opened, .opened opened hUnsent, hShows.calls, hRests, hValue⟩
  | @perform log trace later value value' op output p before offered method run ih =>
      obtain ⟨history, s, state, done, hCarried, rfl, hRests, rfl⟩ := ih
      by_cases hReads : ReadsOutcome op
      · obtain ⟨handle, hClient, hOutcome, rfl, hValue⟩ :=
          @Rests.reads _ s state _ _ _ _ _ hRests hReads method run
        refine ⟨history, s, state, done, .reads hCarried hClient hOutcome, ?_, hRests, hValue.symm⟩
        exact (List.append_nil _).symm
      · obtain ⟨more, t, state', reply, next, hRests', hValue, hMore, hCarries⟩ :=
          @Rests.perform _ opening s state _ _ _ _ _ hRests offered hReads method run
        refine ⟨_, t, state', done.trans next, .awaits hCarried next hMore.sent hMore.yields hCarries, ?_,
          hRests', hValue⟩
        rw [calls_append, hMore.calls]

/-- The client drops its handle, and the worker what it owns. -/
theorem Rests.drop (h : Rests s state) (run : state.value.drop.Exec trace ()) :
    ∃ history t, Run (Step opening) s history t ∧ t.worker = .terminated ∧ Shows history trace [] [] := by
  rw [← state.drop_eq] at run
  have hLast : Shows [.silent] [] [] [] := ⟨rfl, rfl, rfl⟩
  have hDropped := (Shows.of_calls trace).append hLast
  rcases h.client with ⟨handle, hClient, -⟩ | ⟨hClient, -⟩
  · have abandoned : Step opening s .abandon { s with client := .gone } :=
      .abandon (by simp [hClient]) (by simp [hClient])
    have hShows : Shows [.abandon, .cleanup] [] [] [] := ⟨rfl, rfl, rfl⟩
    refine ⟨_, _, .cons abandoned (.cons (.disconnect h.worker h.queue rfl) (run_drop run rfl)), rfl, ?_⟩
    simpa using hShows.append hDropped
  · have hShows : Shows [.cleanup] [] [] [] := ⟨rfl, rfl, rfl⟩
    refine ⟨_, _, .cons (.disconnect h.worker h.queue hClient) (run_drop run rfl), rfl, ?_⟩
    simpa using hShows.append hDropped

/-- What a client of the facade can do. -/
structure Complete (opening : Opening) : Prop where
  /-- A start that fails yields its error. -/
  unopened : ∀ trace error, opening.blocking.Exec trace (.error error) →
    ∃ history s, Run (Step opening) .init₀ history s ∧ s.worker = .terminated ∧ s.client = .gone ∧
      s.init = some (.error error) ∧ Shows history trace [] []
  /-- The same calls are made and the same results yielded or read, up to the
  moment when the value is dropped and after it. -/
  opened : ∀ log trace value later, Scripted opening log trace value → value.drop.Exec later () →
    ∃ history s state, Run (Step opening) .init₀ history s ∧ CarriesOut opening log history s ∧
      calls history = trace ∧ Rests s state ∧ state.value = value ∧
      ∃ more t, Run (Step opening) s more t ∧ t.worker = .terminated ∧ Shows more later [] []

/-- Every blocking program of the methods that both APIs have is one of the facade. -/
theorem facade_complete (opening : Opening) : Complete opening where
  unopened _ _ run := gone_of_unopened run
  opened log trace value later scripted drop := by
    obtain ⟨history, s, state, run, hCarried, hCalls, hRests, rfl⟩ := rests_of_scripted scripted
    exact ⟨history, s, state, run, hCarried, hCalls, hRests, rfl, hRests.drop drop⟩

end

end Tokio
end RestartManager
