import RestartManager.Tokio.Refinement

/-! What the worker does between taking a command and answering it: it runs the
command on the typestate of the handle that sent it. -/
namespace RestartManager

open Interaction Program Transition

namespace Tokio

variable [Platform] {opening : Opening} {history : List Label} {s t : System} {l : Label}
  {ticket : Nat}

/-- A command that the worker has not taken. -/
def System.Untaken (s : System) (ticket : Nat) : Prop :=
  s.sent ≤ ticket ∨ ∃ command, (ticket, command) ∈ s.queue

theorem Step.untaken (step : Step opening s l t) (h : t.Untaken ticket) : s.Untaken ticket := by
  have hSend {command : Command}
      (h : s.sent + 1 ≤ ticket ∨ ∃ c, (ticket, c) ∈ s.queue ++ [(s.sent, command)]) :
      s.Untaken ticket := by
    rcases h with hSent | ⟨c, hMem⟩
    · exact .inl (by omega)
    · rcases List.mem_append.mp hMem with hMem | hMem
      · exact .inr ⟨c, hMem⟩
      · obtain ⟨rfl, -⟩ := Prod.mk.inj (List.mem_singleton.mp hMem)
        exact .inl (Nat.le_refl _)
  cases step
  case borrow => exact hSend h
  case consume => exact hSend h
  case take hWorker queued =>
    rcases h with hSent | ⟨c, hMem⟩
    · exact .inl hSent
    · exact .inr ⟨c, queued ▸ List.mem_cons_of_mem _ hMem⟩
  all_goals exact h

/-- A reply that was sent stays. -/
theorem Step.replied (step : Step opening s l t) (h : s.replies ticket ≠ none) :
    t.replies ticket ≠ none := by
  rcases step.replies with hSame | ⟨ticket', command, reply, state, -, -, hUpdate⟩
  · rw [hSame]
    exact h
  · rw [hUpdate]
    by_cases hTicket : ticket = ticket'
    · subst hTicket
      rw [Function.update_self]
      exact Option.some_ne_none _
    · rw [Function.update_of_ne hTicket]
      exact h

/-- How the worker comes to execute a command. -/
inductive Executes (s : System) (l : Label) (ticket : Nat) (command : Command)
    (rest : Native (Except Payload Reply × WorkerState)) : Prop
  | still (worker : s.worker = .executing ticket command rest) (quiet : l.call? = none)
  | called {c : Call} {next : c.Response → Native (Except Payload Reply × WorkerState)}
      {response : c.Response} (worker : s.worker = .executing ticket command (.call c next))
      (call : l = .call ⟨c, response⟩) (rest_eq : rest = next response)
  | taken {state : WorkerState} {queue : List (Nat × Command)} (worker : s.worker = .idle state)
      (queued : s.queue = (ticket, command) :: queue) (rest_eq : rest = executeCommand command state)
      (quiet : l.call? = none)

theorem Step.executes (step : Step opening s l t) {command : Command}
    {rest : Native (Except Payload Reply × WorkerState)}
    (h : t.worker = .executing ticket command rest) : Executes s l ticket command rest := by
  cases step
  case take hWorker queued =>
    cases h
    exact .taken hWorker queued rfl rfl
  case executeCall hWorker =>
    cases h
    exact .called hWorker rfl rfl
  all_goals first | exact .still h rfl | cases h

/-- The command that is executed is the last one that was taken. -/
theorem executing_taken (run : Run (Step opening) .init₀ history s) {command : Command}
    {rest : Native (Except Payload Reply × WorkerState)}
    (hWorker : s.worker = .executing ticket command rest) : ¬s.Untaken ticket := by
  obtain ⟨done, flight, h⟩ := Pipeline.of_run run
  have hCount := h.count_eq
  have hTaken : ticket + 1 = done.length := by
    have hStage := h.stage
    rw [hWorker] at hStage
    generalize calls history = trace, released history = flag at hStage
    cases hStage with
    | executing before method run related allowed => simp
  intro hUntaken
  rcases hUntaken with hSent | ⟨c, hMem⟩
  · omega
  · rw [h.queue_eq] at hMem
    obtain ⟨⟨pair, n⟩, hPair, hEq⟩ := List.mem_map.mp hMem
    have hRange := List.mem_zipIdx hPair
    obtain ⟨rfl, -⟩ := Prod.mk.inj hEq
    omega

/-- A command is taken by the typestate of the handle that sent it. -/
theorem taken_sends (run : Run (Step opening) .init₀ history s) {state : WorkerState}
    {command : Command} {queue : List (Nat × Command)} (hWorker : s.worker = .idle state)
    (hQueue : s.queue = (ticket, command) :: queue) :
    ∃ (handle : Handle) (op : Op), handle.Matches state ∧ handle.Sends op command ∧
      (sent history)[ticket]? = some (op, command) := by
  obtain ⟨done, flight, h⟩ := Pipeline.of_run run
  have hEq := h.queue_eq
  rw [hQueue] at hEq
  have hStage := h.stage
  rw [hWorker] at hStage
  generalize calls history = trace, released history = flag at hStage
  cases hStage with
  | idle before inFlight fits =>
      cases flight with
      | nil => cases hEq
      | cons pair flight =>
          obtain ⟨⟨handle, hMatches, hSends⟩, -⟩ := inFlight
          rw [List.zipIdx_cons, List.map_cons] at hEq
          obtain ⟨hHead, -⟩ := List.cons.inj hEq
          obtain ⟨rfl, rfl⟩ := Prod.mk.inj hHead
          refine ⟨handle, pair.1, hMatches, hSends, ?_⟩
          rw [h.sent_eq, List.getElem?_append_right (Nat.le_refl _), Nat.sub_self]
          rfl

/-- The run of a command began when the command was taken. -/
theorem executing_began (run : Run (Step opening) .init₀ history s) {command : Command}
    {rest : Native (Except Payload Reply × WorkerState)}
    (hWorker : s.worker = .executing ticket command rest) :
    ∃ before later t state queue, history = before ++ .execute command :: later ∧
      executed later = [] ∧ Run (Step opening) .init₀ before t ∧ t.worker = .idle state ∧
      t.queue = (ticket, command) :: queue ∧
      (executeCommand command state).Steps (calls later) rest := by
  induction run generalizing rest with
  | refl => cases hWorker
  | @snoc history t u l run step ih =>
      have hStill (hCall : l.call? = none) (hExecuted : l.executed? = none)
          (hWorker : t.worker = .executing ticket command rest) :
          ∃ before later t state queue, history ++ [l] = before ++ .execute command :: later ∧
            executed later = [] ∧ Run (Step opening) .init₀ before t ∧ t.worker = .idle state ∧
            t.queue = (ticket, command) :: queue ∧
            (executeCommand command state).Steps (calls later) rest := by
        obtain ⟨before, later, t, state, queue, rfl, hNone, hRun, hIdle, hQueue, hSteps⟩ := ih hWorker
        refine ⟨before, later ++ [l], t, state, queue, by simp, ?_, hRun, hIdle, hQueue, ?_⟩
        · rw [executed_snoc, hNone, hExecuted]
          rfl
        · rw [calls_snoc, hCall]
          simpa using hSteps
      cases step
      case take hIdle queued =>
        cases hWorker
        exact ⟨_, [], t, _, _, rfl, rfl, run, hIdle, queued, .refl _⟩
      case executeCall c next response hBefore =>
        cases hWorker
        obtain ⟨before, later, t, state, queue, rfl, hNone, hRun, hIdle, hQueue, hSteps⟩ := ih hBefore
        refine ⟨before, later ++ [.call ⟨c, response⟩], t, state, queue, by simp, ?_, hRun, hIdle, hQueue, ?_⟩
        · rw [executed_snoc, hNone]
          rfl
        · rw [calls_snoc]
          exact hSteps.snoc response
      all_goals first | exact hStill rfl rfl hWorker | cases hWorker

theorem replied_of_answered (run : Run (Step opening) .init₀ history s)
    (h : ticket ∈ answered history) : s.replies ticket ≠ none := by
  induction run with
  | refl => cases h
  | @snoc history t u l run step ih =>
      rw [answered_snoc, List.mem_append] at h
      rcases h with hMem | hMem
      · exact step.replied (ih hMem)
      · have hLabel := Option.mem_toList.mp hMem
        cases step <;> cases hLabel
        simp

end Tokio
end RestartManager
