import RestartManager.Tokio.Abandonment
import RestartManager.Tokio.Executions
import RestartManager.Tokio.Renumbering

/-! A client that waits is answered. While it does, only its worker moves; the
worker comes to rest after finitely many steps, and at rest it has answered. -/
namespace RestartManager

open Interaction Contract Program Transition

namespace Tokio

section

variable [Platform]

/-- The labels of the worker. -/
def Label.OfWorker : Label → Prop
  | .call _ | .execute _ | .answer .. | .cleanup | .silent => True
  | _ => False

/-- A step of the worker, while the client waits. -/
def Works (opening : Opening) (s : System) (l : Label) (t : System) : Prop :=
  Step opening s l t ∧ l.OfWorker ∧ t.client = s.client

/-- What the client waits for is there. After a client that is gone, the worker
has terminated. -/
def System.Answered (s : System) : Prop :=
  match s.client with
  | .opening => s.init ≠ none
  | .borrowing _ ticket => s.replies ticket ≠ none
  | .awaiting _ ticket => s.replies ticket ≠ none
  | .gone => s.worker = .absent ∨ s.worker = .terminated
  | _ => True

/-! ### The steps of the worker -/

/-- The steps of a worker, whether or not its client is gone. -/
inductive Working : WorkerPhase × List (Nat × Command) → WorkerPhase × List (Nat × Command) → Prop
  | alone {x y : WorkerPhase × List (Nat × Command)} (step : Alone x y) : Working x y
  | initSent {state : WorkerState} {handle : Handle} {queue : List (Nat × Command)} :
      Working (.opened state handle, queue) (.idle state, queue)

/-- The worker has sent the outcome of its start, or has found no receiver. -/
def WorkerPhase.Begun : WorkerPhase → Prop
  | .opening _ | .opened .. => False
  | _ => True

variable {opening : Opening} {history : List Label} {s t : System} {l : Label}

theorem Works.working (h : Works opening s l t) : Working (s.worker, s.queue) (t.worker, t.queue) := by
  obtain ⟨step, hLabel, hClient⟩ := h
  cases step
  case openCall response h =>
    rw [h]
    exact .alone (.openCall response)
  case openFailed h =>
    rw [h]
    exact .alone .openFailed
  case openDone h =>
    rw [h]
    exact .alone .openDone
  case initSent h alive =>
    rw [h]
    exact .initSent
  case initUnsent h dropped =>
    rw [h]
    exact .alone .initUnsent
  case take h queued =>
    rw [h, queued]
    exact .alone .take
  case executeCall response h =>
    rw [h]
    exact .alone (.executeCall response)
  case answer h =>
    rw [h]
    exact .alone .answer
  case unwind h =>
    rw [h]
    exact .alone .unwind
  case disconnect h drained dropped =>
    rw [h, drained]
    exact .alone .disconnect
  case dropCall response h =>
    rw [h]
    exact .alone (.dropCall response)
  case terminate h =>
    rw [h]
    exact .alone .terminate
  -- Every other step moves the client, or carries a label of its own.
  all_goals first | exact hLabel.elim | simp_all

namespace Working

variable {queue : List (Nat × Command)}

theorem finite_begun {x : WorkerPhase × List (Nat × Command)} (hBegun : x.1.Begun) :
    Acc (flip Working) x := by
  have hFinite : Acc (flip Alone) x := Alone.finite x.1
  induction hFinite with
  | intro x _ ih =>
      constructor
      intro y step
      cases step with
      | alone step =>
          apply ih y step
          cases step <;> first | exact hBegun.elim | trivial
      | initSent => exact hBegun.elim

theorem finite_opened (state : WorkerState) (handle : Handle) :
    Acc (flip Working) (.opened state handle, queue) := by
  constructor
  intro y step
  cases step with
  | alone step =>
      cases step with
      | initUnsent => exact finite_begun trivial
  | initSent => exact finite_begun trivial

theorem finite_opening (rest : Native (Except Error (WorkerState × Handle))) :
    Acc (flip Working) (.opening rest, queue) := by
  induction rest with
  | done result =>
      constructor
      intro y step
      cases step with
      | alone step =>
          cases step with
          | openFailed => exact finite_begun trivial
          | openDone => exact finite_opened _ _
  | call c next ih =>
      constructor
      intro y step
      cases step with
      | alone step =>
          cases step with
          | openCall response => exact ih response

theorem finite (worker : WorkerPhase) : Acc (flip Working) (worker, queue) := by
  cases worker with
  | opening rest => exact finite_opening rest
  | opened state handle => exact finite_opened state handle
  | absent | idle | executing | dropping | terminated => exact finite_begun trivial

end Working

/-! ### At rest -/

/-- The ticket that a client waits for was given out. -/
theorem Step.waiting_sent (step : Step opening s l t)
    (h : ∀ ticket, s.client.ticket? = some ticket → ticket < s.sent) (ticket : Nat)
    (hTicket : t.client.ticket? = some ticket) : ticket < t.sent := by
  cases step
  case borrow | consume =>
    cases hTicket
    exact Nat.lt_succ_self _
  case consumeReply future _ reply _ _ =>
    cases hHandle : future.handle reply with
    | none =>
        rw [hHandle] at hTicket
        cases hTicket
    | some handle =>
        rw [hHandle] at hTicket
        cases hTicket
  all_goals first | exact h ticket hTicket | cases hTicket

theorem waiting_sent (run : Run (Step opening) .init₀ history s) (ticket : Nat)
    (hTicket : s.client.ticket? = some ticket) : ticket < s.sent := by
  induction run generalizing ticket with
  | refl => cases hTicket
  | snoc run step ih => exact step.waiting_sent ih ticket hTicket

/-- The worker has not started, is through, or waits for commands. -/
def WorkerPhase.Rested : WorkerPhase → Prop
  | .absent | .idle _ | .terminated => True
  | _ => False

/-- A worker with no command to take has replied to every one. -/
theorem rested_replied (run : Run (Step opening) .init₀ history s) (hRested : s.worker.Rested)
    (hQueue : s.queue = []) {ticket : Nat} (hTicket : ticket < s.sent) : s.replies ticket ≠ none := by
  obtain ⟨done, flight, h⟩ := Pipeline.of_run run
  have hQueued := h.queue_eq
  rw [hQueue] at hQueued
  obtain rfl : flight = [] := by simpa using hQueued
  have hCount : s.sent = done.length := h.count_eq
  have hBusy : s.worker.busy = 0 := by
    cases hWorker : s.worker <;> first | rfl | simp [WorkerPhase.Rested, hWorker] at hRested
  apply replied_of_answered run
  rw [h.answered_eq, hBusy, List.mem_range, Nat.sub_zero]
  exact hCount ▸ hTicket

/-- A worker that cannot move has taken every command, and is at rest. -/
theorem rested_of_stuck (run : Run (Step opening) .init₀ history s)
    (hStuck : ∀ l t, ¬Works opening s l t) : s.queue = [] ∧ s.worker.Rested := by
  obtain ⟨done, flight, h⟩ := Pipeline.of_run run
  have hStage := h.stage
  have hQueued := h.queue_eq
  cases hWorker : s.worker with
  | absent =>
      rw [hWorker] at hStage
      generalize calls history = trace, released history = flag at hStage
      cases hStage
      exact ⟨hQueued, trivial⟩
  | terminated =>
      obtain ⟨rfl, -⟩ := h.terminated hWorker
      exact ⟨hQueued, trivial⟩
  | opening rest =>
      cases rest with
      | done result =>
          cases result with
          | error error => exact absurd ⟨.openFailed hWorker, trivial, rfl⟩ (hStuck _ _)
          | ok opened => exact absurd ⟨.openDone hWorker, trivial, rfl⟩ (hStuck _ _)
      | call c next =>
          obtain ⟨response⟩ := c.answered
          exact absurd ⟨@Step.openCall _ _ _ _ _ response hWorker, trivial, rfl⟩ (hStuck _ _)
  | opened state handle =>
      by_cases hClient : s.client = .opening
      · exact absurd ⟨.initSent hWorker hClient, trivial, rfl⟩ (hStuck _ _)
      · exact absurd ⟨.initUnsent hWorker hClient, trivial, rfl⟩ (hStuck _ _)
  | idle state =>
      cases hQueue : s.queue with
      | cons pair queue => exact absurd ⟨.take hWorker hQueue, trivial, rfl⟩ (hStuck _ _)
      | nil => exact ⟨rfl, trivial⟩
  | executing ticket command rest =>
      cases rest with
      | done result =>
          obtain ⟨outcome, state⟩ := result
          cases outcome with
          | ok reply => exact absurd ⟨.answer hWorker, trivial, rfl⟩ (hStuck _ _)
          | error payload => exact absurd ⟨.unwind hWorker, trivial, rfl⟩ (hStuck _ _)
      | call c next =>
          obtain ⟨response⟩ := c.answered
          exact absurd ⟨@Step.executeCall _ _ _ _ _ _ _ response hWorker, trivial, rfl⟩ (hStuck _ _)
  | dropping rest =>
      cases rest with
      | done result => exact absurd ⟨.terminate hWorker, trivial, rfl⟩ (hStuck _ _)
      | call c next =>
          obtain ⟨response⟩ := c.answered
          exact absurd ⟨@Step.dropCall _ _ _ _ _ response hWorker, trivial, rfl⟩ (hStuck _ _)

/-- A worker that cannot move has answered. -/
theorem answered_of_stuck (run : Run (Step opening) .init₀ history s)
    (hStuck : ∀ l t, ¬Works opening s l t) : s.queue = [] ∧ s.Answered := by
  obtain ⟨hQueue, hRested⟩ := rested_of_stuck run hStuck
  obtain ⟨done, flight, h⟩ := Pipeline.of_run run
  obtain ⟨hPhase, -⟩ := h.coupled
  refine ⟨hQueue, ?_⟩
  have hReplied {ticket : Nat} (hTicket : s.client.ticket? = some ticket) : s.replies ticket ≠ none :=
    rested_replied run hRested hQueue (waiting_sent run ticket hTicket)
  unfold System.Answered
  cases hClient : s.client with
  | unpolled | holding | cancelling => trivial
  | borrowing handle ticket => exact hReplied (by rw [hClient]; rfl)
  | awaiting future ticket => exact hReplied (by rw [hClient]; rfl)
  | gone =>
      cases hWorker : s.worker with
      | absent => exact .inl rfl
      | terminated => exact .inr rfl
      | idle state => exact absurd ⟨.disconnect hWorker hQueue hClient, trivial, rfl⟩ (hStuck _ _)
      | opening | opened | executing | dropping => simp [WorkerPhase.Rested, hWorker] at hRested
  | opening =>
      cases hWorker : s.worker with
      | absent => simp [hWorker, hClient] at hPhase
      | terminated =>
          rw [hWorker] at hPhase
          rcases hPhase with hGone | ⟨-, error, hInit⟩
          · simp [hClient] at hGone
          · simp [hInit]
      | idle state =>
          have hStage := h.stage
          rw [hWorker, hClient] at hStage
          generalize calls history = trace, released history = flag at hStage
          have hQueued := h.queue_eq
          rw [hQueue] at hQueued
          obtain rfl : flight = [] := by simpa using hQueued
          cases hStage with
          | idle before inFlight fits =>
              obtain ⟨handle, hInit, -⟩ := inFlight
              simp [hInit]
      | opening | opened | executing | dropping => simp [WorkerPhase.Rested, hWorker] at hRested

/-- From any reachable state, whatever Windows answers: a client that does
nothing but wait finds its answer after finitely many steps of its worker. -/
theorem waiting_ends (run : Run (Step opening) .init₀ history s) :
    Inevitable (Works opening) s fun t => t.client = s.client ∧ t.queue = [] ∧ t.Answered := by
  let Inv (t : System) : Prop := t.client = s.client ∧ ∃ later, Run (Step opening) .init₀ later t
  have hInit : Inv s := ⟨rfl, history, run⟩
  apply Inevitable.of_progress (fun s : System => (s.worker, s.queue)) (Working.finite s.worker)
    (fun _ _ _ _ h => h.working) hInit
  · rintro t l u ⟨hClient, later, before⟩ ⟨step, -, hSame⟩
    exact ⟨hSame.trans hClient, _, before.snoc step⟩
  · rintro t ⟨hClient, later, before⟩ hStuck
    exact ⟨hClient, answered_of_stuck before hStuck⟩

end

section

attribute [local instance] Platform.driveLetters

/-- A shutdown was sent, and the worker has not taken it. -/
theorem waiting_ends_shutdown : ∃ s : System, s.client.ticket? = some 0 ∧ s.replies 0 = none ∧
    Inevitable (Works .primary) s fun t => t.client = s.client ∧ t.queue = [] ∧ t.Answered := by
  let core : SessionCore := ⟨⟨3, false⟩, ⟨List.replicate 32 0x30, by decide⟩⟩
  have run : ∃ s, Run (Step .primary) .init₀
      [.silent, .call ⟨.rmStartSession, ⟨ERROR_SUCCESS, 3, zeroKey⟩⟩, .silent, .silent, .silent,
        .send .shutdown (.shutdown {})] s ∧ s.client.ticket? = some 0 ∧ s.replies 0 = none := by
    apply Exists.intro
    constructor
    apply Run.cons (.spawn rfl)
    apply Run.cons (.openCall rfl)
    apply Run.cons (@Step.openDone _ _ _ (.primary ⟨core⟩) _ rfl)
    apply Run.cons (.initSent rfl rfl)
    apply Run.cons (.openedHandle rfl rfl)
    apply Run.cons (.consume rfl rfl nofun)
    exact .refl
    exact ⟨rfl, rfl⟩
  obtain ⟨s, run, hTicket, hReply⟩ := run
  exact ⟨s, hTicket, hReply, waiting_ends run⟩

end

end Tokio
end RestartManager
