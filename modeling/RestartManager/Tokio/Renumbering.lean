import RestartManager.Tokio.Refused
import RestartManager.Tokio.Retained

/-! Two facades that differ only in how many commands they were sent before.
They take the same steps, and so a refused operation makes no difference to
what follows it. -/
namespace RestartManager

open Interaction Program Transition

namespace Tokio

variable [Platform]

/-! ### Facades up to the numbers of their commands -/

/-- The ticket that a client waits for. -/
def Client.ticket? : Client → Option Nat
  | .borrowing _ ticket => some ticket
  | .awaiting _ ticket => some ticket
  | _ => none

def WorkerPhase.ticket? : WorkerPhase → Option Nat
  | .executing ticket _ _ => some ticket
  | _ => none

def Label.ticket? : Label → Option Nat
  | .answer ticket _ => some ticket
  | .yield ticket _ => some ticket
  | _ => none

/-- Tickets are counted from `k` in one facade, and from `k'` in the other. -/
inductive Client.Same (k k' : Nat) : Client → Client → Prop
  | plain {client : Client} (h : client.ticket? = none) : Same k k' client client
  | borrowing (handle : Handle) (n : Nat) :
      Same k k' (.borrowing handle (k + n)) (.borrowing handle (k' + n))
  | awaiting (future : Future) (n : Nat) :
      Same k k' (.awaiting future (k + n)) (.awaiting future (k' + n))

inductive WorkerPhase.Same (k k' : Nat) : WorkerPhase → WorkerPhase → Prop
  | plain {worker : WorkerPhase} (h : worker.ticket? = none) : Same k k' worker worker
  | executing (n : Nat) (command : Command) (rest : Native (Except Payload Reply × WorkerState)) :
      Same k k' (.executing (k + n) command rest) (.executing (k' + n) command rest)

inductive Label.Same (k k' : Nat) : Label → Label → Prop
  | plain {l : Label} (h : l.ticket? = none) : Same k k' l l
  | answer (n : Nat) (reply : Reply) : Same k k' (.answer (k + n) reply) (.answer (k' + n) reply)
  | yield (n : Nat) (reply : Reply) : Same k k' (.yield (k + n) reply) (.yield (k' + n) reply)

/-- A label without the number of its command. -/
def Label.unnumbered : Label → Label
  | .answer _ reply => .answer 0 reply
  | .yield _ reply => .yield 0 reply
  | l => l

/-- A history without the numbers of its commands. -/
def shape (history : List Label) : List Label := history.map Label.unnumbered

/-- The commands of a channel, when they are numbered from `k`. -/
def numbered (k : Nat) (queue : List (Nat × Command)) : List (Nat × Command) :=
  queue.map fun entry => (k + entry.1, entry.2)

structure System.Same (k k' : Nat) (s s' : System) : Prop where
  client : s.client.Same k k' s'.client
  worker : s.worker.Same k k' s'.worker
  queue : ∃ queue, s.queue = numbered k queue ∧ s'.queue = numbered k' queue
  sent : ∃ n, s.sent = k + n ∧ s'.sent = k' + n
  init : s.init = s'.init
  replies : ∀ n, s.replies (k + n) = s'.replies (k' + n)

section

variable {opening : Opening} {k k' : Nat} {s s' t : System} {l : Label}

/-- Labels that agree up to numbers are equal without them. -/
theorem Label.Same.unnumbered {l' : Label} (h : l.Same k k' l') : l'.unnumbered = l.unnumbered := by
  cases h <;> rfl

theorem shape_append {first second : List Label} :
    shape (first ++ second) = shape first ++ shape second := List.map_append

theorem Client.Same.symm {client client' : Client} (h : client.Same k k' client') :
    client'.Same k' k client := by
  cases h with
  | plain h => exact .plain h
  | borrowing handle n => exact .borrowing handle n
  | awaiting future n => exact .awaiting future n

theorem WorkerPhase.Same.symm {worker worker' : WorkerPhase} (h : worker.Same k k' worker') :
    worker'.Same k' k worker := by
  cases h with
  | plain h => exact .plain h
  | executing n command rest => exact .executing n command rest

/-- The relation is symmetric, part by part. -/
theorem System.Same.symm (h : s.Same k k' s') : s'.Same k' k s where
  client := h.client.symm
  worker := h.worker.symm
  queue := by
    obtain ⟨queue, hQueue, hQueue'⟩ := h.queue
    exact ⟨queue, hQueue', hQueue⟩
  sent := by
    obtain ⟨n, hSent, hSent'⟩ := h.sent
    exact ⟨n, hSent', hSent⟩
  init := h.init.symm
  replies n := (h.replies n).symm

namespace System.Same

/-- A client without a ticket is the same on both sides. -/
theorem client_eq (h : s.Same k k' s') {client : Client} (hPlain : client.ticket? = none)
    (hClient : s.client = client) : s'.client = client := by
  have hSame := h.client
  rw [hClient] at hSame
  generalize s'.client = client' at hSame
  cases hSame with
  | plain => rfl
  | borrowing => cases hPlain
  | awaiting => cases hPlain

/-- A worker without a ticket is the same on both sides. -/
theorem worker_eq (h : s.Same k k' s') {worker : WorkerPhase} (hPlain : worker.ticket? = none)
    (hWorker : s.worker = worker) : s'.worker = worker := by
  have hSame := h.worker
  rw [hWorker] at hSame
  generalize s'.worker = worker' at hSame
  cases hSame with
  | plain => rfl
  | executing => cases hPlain

theorem client_ne (h : s.Same k k' s') {client : Client} (hPlain : client.ticket? = none)
    (hClient : s.client ≠ client) : s'.client ≠ client :=
  fun hEq => hClient (h.symm.client_eq hPlain hEq)

theorem worker_ne (h : s.Same k k' s') {worker : WorkerPhase} (hPlain : worker.ticket? = none)
    (hWorker : s.worker ≠ worker) : s'.worker ≠ worker :=
  fun hEq => hWorker (h.symm.worker_eq hPlain hEq)

/-- A ticket counts from the offset of its side. -/
theorem borrowing_eq (h : s.Same k k' s') {handle : Handle} {ticket : Nat}
    (hClient : s.client = .borrowing handle ticket) :
    ∃ n, ticket = k + n ∧ s'.client = .borrowing handle (k' + n) := by
  have hSame := h.client
  rw [hClient] at hSame
  generalize s'.client = client' at hSame
  cases hSame with
  | plain hPlain => cases hPlain
  | borrowing handle n => exact ⟨n, rfl, rfl⟩

/-- The ticket of a future likewise. -/
theorem awaiting_eq (h : s.Same k k' s') {future : Future} {ticket : Nat}
    (hClient : s.client = .awaiting future ticket) :
    ∃ n, ticket = k + n ∧ s'.client = .awaiting future (k' + n) := by
  have hSame := h.client
  rw [hClient] at hSame
  generalize s'.client = client' at hSame
  cases hSame with
  | plain hPlain => cases hPlain
  | awaiting future n => exact ⟨n, rfl, rfl⟩

/-- The ticket of the worker likewise. -/
theorem executing_eq (h : s.Same k k' s') {ticket : Nat} {command : Command}
    {rest : Native (Except Payload Reply × WorkerState)}
    (hWorker : s.worker = .executing ticket command rest) :
    ∃ n, ticket = k + n ∧ s'.worker = .executing (k' + n) command rest := by
  have hSame := h.worker
  rw [hWorker] at hSame
  generalize s'.worker = worker' at hSame
  cases hSame with
  | plain hPlain => cases hPlain
  | executing n command rest => exact ⟨n, rfl, rfl⟩

/-- Only the client moves. -/
theorem set_client (h : s.Same k k' s') {client client' : Client} (hClient : client.Same k k' client') :
    System.Same k k' { s with client := client } { s' with client := client' } :=
  ⟨hClient, h.worker, h.queue, h.sent, h.init, h.replies⟩

/-- Only the worker moves. -/
theorem set_worker (h : s.Same k k' s') {worker worker' : WorkerPhase}
    (hWorker : worker.Same k k' worker') :
    System.Same k k' { s with worker := worker } { s' with worker := worker' } :=
  ⟨h.client, hWorker, h.queue, h.sent, h.init, h.replies⟩

/-- A command that is sent has the next number in both. -/
theorem send (h : s.Same k k' s') {client : Nat → Client} {command : Command}
    (hClient : ∀ n, (client (k + n)).Same k k' (client (k' + n))) :
    System.Same k k'
      { s with client := client s.sent, queue := s.queue ++ [(s.sent, command)], sent := s.sent + 1 }
      { s' with client := client s'.sent, queue := s'.queue ++ [(s'.sent, command)],
                sent := s'.sent + 1 } := by
  obtain ⟨queue, hQueue, hQueue'⟩ := h.queue
  obtain ⟨n, hSent, hSent'⟩ := h.sent
  refine ⟨?_, h.worker, ⟨queue ++ [(n, command)], ?_, ?_⟩, ⟨n + 1, ?_, ?_⟩, h.init, h.replies⟩
  · dsimp only
    rw [hSent, hSent']
    exact hClient n
  · simp [numbered, hQueue, hSent]
  · simp [numbered, hQueue', hSent']
  · dsimp only
    omega
  · dsimp only
    omega

end System.Same

/-- What one facade can do, the other can. -/
theorem Step.same (h : s.Same k k' s') (step : Step opening s l t) :
    ∃ l' t', l.Same k k' l' ∧ Step opening s' l' t' ∧ t.Same k k' t' := by
  cases step
  case spawn hClient =>
    exact ⟨_, _, .plain rfl, .spawn (h.client_eq rfl hClient),
      (h.set_client (.plain rfl)).set_worker (.plain rfl)⟩
  case spawnFailed hClient =>
    exact ⟨_, _, .plain rfl, .spawnFailed (h.client_eq rfl hClient), h.set_client (.plain rfl)⟩
  case openCall hWorker =>
    exact ⟨_, _, .plain rfl, .openCall (h.worker_eq rfl hWorker), h.set_worker (.plain rfl)⟩
  case openFailed hWorker =>
    exact ⟨_, _, .plain rfl, .openFailed (h.worker_eq rfl hWorker),
      ⟨h.client, .plain rfl, h.queue, h.sent, rfl, h.replies⟩⟩
  case openDone hWorker =>
    exact ⟨_, _, .plain rfl, .openDone (h.worker_eq rfl hWorker), h.set_worker (.plain rfl)⟩
  case initSent hWorker alive =>
    exact ⟨_, _, .plain rfl, .initSent (h.worker_eq rfl hWorker) (h.client_eq rfl alive),
      ⟨h.client, .plain rfl, h.queue, h.sent, rfl, h.replies⟩⟩
  case initUnsent hWorker dropped =>
    exact ⟨_, _, .plain rfl, .initUnsent (h.worker_eq rfl hWorker) (h.client_ne rfl dropped),
      h.set_worker (.plain rfl)⟩
  case openedHandle hClient received =>
    exact ⟨_, _, .plain rfl, .openedHandle (h.client_eq rfl hClient) (h.init ▸ received),
      h.set_client (.plain rfl)⟩
  case openedError hClient received =>
    exact ⟨_, _, .plain rfl, .openedError (h.client_eq rfl hClient) (h.init ▸ received),
      h.set_client (.plain rfl)⟩
  case openedNothing hClient empty terminated =>
    exact ⟨_, _, .plain rfl, .openedNothing (h.client_eq rfl hClient) (h.init ▸ empty)
      (h.worker_eq rfl terminated), h.set_client (.plain rfl)⟩
  case borrow handle op command hClient method alive =>
    exact ⟨_, _, .plain rfl, .borrow (h.client_eq rfl hClient) method (h.worker_ne rfl alive),
      @System.Same.send _ _ _ _ _ h (Client.borrowing handle) command fun n => .borrowing handle n⟩
  case borrowFailed hClient method terminated =>
    exact ⟨_, _, .plain rfl, .borrowFailed (h.client_eq rfl hClient) method
      (h.worker_eq rfl terminated), h⟩
  case borrowReply hClient received =>
    obtain ⟨n, rfl, hClient'⟩ := h.borrowing_eq hClient
    exact ⟨_, _, .yield n _, .borrowReply hClient' (h.replies n ▸ received),
      h.set_client (.plain rfl)⟩
  case borrowLost hClient empty terminated =>
    obtain ⟨n, rfl, hClient'⟩ := h.borrowing_eq hClient
    exact ⟨_, _, .plain rfl, .borrowLost hClient' (h.replies n ▸ empty) (h.worker_eq rfl terminated),
      h.set_client (.plain rfl)⟩
  case borrowDropped hClient =>
    obtain ⟨n, rfl, hClient'⟩ := h.borrowing_eq hClient
    exact ⟨_, _, .plain rfl, .borrowDropped hClient', h.set_client (.plain rfl)⟩
  case consume handle op command future hClient method alive =>
    exact ⟨_, _, .plain rfl, .consume (h.client_eq rfl hClient) method (h.worker_ne rfl alive),
      @System.Same.send _ _ _ _ _ h (Client.awaiting future) command fun n => .awaiting future n⟩
  case consumeFailed hClient method terminated =>
    exact ⟨_, _, .plain rfl, .consumeFailed (h.client_eq rfl hClient) method
      (h.worker_eq rfl terminated), h.set_client (.plain rfl)⟩
  case consumeReply future ticket reply hClient received =>
    obtain ⟨n, rfl, hClient'⟩ := h.awaiting_eq hClient
    refine ⟨_, _, .yield n _, .consumeReply hClient' (h.replies n ▸ received), h.set_client (.plain ?_)⟩
    cases future.handle reply <;> rfl
  case consumeLost hClient empty terminated =>
    obtain ⟨n, rfl, hClient'⟩ := h.awaiting_eq hClient
    exact ⟨_, _, .plain rfl, .consumeLost hClient' (h.replies n ▸ empty) (h.worker_eq rfl terminated),
      h.set_client (.plain rfl)⟩
  case cancel key raw ticket ended hClient =>
    obtain ⟨n, rfl, hClient'⟩ := h.awaiting_eq hClient
    exact ⟨_, _, .plain rfl, .cancel ended hClient', h.set_client (.plain rfl)⟩
  case cancelCall hClient =>
    exact ⟨_, _, .plain rfl, .cancelCall (h.client_eq rfl hClient), h.set_client (.plain rfl)⟩
  case abandon owned cancelled =>
    exact ⟨_, _, .plain rfl, .abandon (h.client_ne rfl owned)
      fun c next => h.client_ne rfl (cancelled c next), h.set_client (.plain rfl)⟩
  case take state ticket command rest hWorker queued =>
    obtain ⟨queue, hQueue, hQueue'⟩ := h.queue
    rw [queued] at hQueue
    cases queue with
    | nil => cases hQueue
    | cons entry queue =>
        cases hQueue
        exact ⟨_, _, .plain rfl, .take (h.worker_eq rfl hWorker) hQueue',
          ⟨h.client, .executing entry.1 _ _, ⟨queue, rfl, rfl⟩, h.sent, h.init, h.replies⟩⟩
  case executeCall hWorker =>
    obtain ⟨n, rfl, hWorker'⟩ := h.executing_eq hWorker
    exact ⟨_, _, .plain rfl, .executeCall hWorker', h.set_worker (.executing n _ _)⟩
  case answer ticket command reply state hWorker =>
    obtain ⟨n, rfl, hWorker'⟩ := h.executing_eq hWorker
    refine ⟨_, _, .answer n reply, .answer hWorker',
      ⟨h.client, .plain rfl, h.queue, h.sent, h.init, fun m => ?_⟩⟩
    by_cases hTicket : m = n
    · subst hTicket
      simp
    · simp [Function.update_of_ne, hTicket, h.replies m]
  case unwind hWorker =>
    obtain ⟨n, rfl, hWorker'⟩ := h.executing_eq hWorker
    exact ⟨_, _, .plain rfl, .unwind hWorker', h.set_worker (.plain rfl)⟩
  case disconnect hWorker drained dropped =>
    obtain ⟨queue, hQueue, hQueue'⟩ := h.queue
    have hDrained : s'.queue = [] := by
      rw [drained] at hQueue
      rw [hQueue', List.map_eq_nil_iff.mp hQueue.symm]
      rfl
    exact ⟨_, _, .plain rfl, .disconnect (h.worker_eq rfl hWorker) hDrained (h.client_eq rfl dropped),
      h.set_worker (.plain rfl)⟩
  case dropCall hWorker =>
    exact ⟨_, _, .plain rfl, .dropCall (h.worker_eq rfl hWorker), h.set_worker (.plain rfl)⟩
  case terminate hWorker =>
    exact ⟨_, _, .plain rfl, .terminate (h.worker_eq rfl hWorker), h.set_worker (.plain rfl)⟩

/-- The labels of one facade are those of the other. -/
theorem run_same {history : List Label} (h : s.Same k k' s') (run : Run (Step opening) s history t) :
    ∃ history' t', shape history' = shape history ∧ Run (Step opening) s' history' t' ∧
      t.Same k k' t' := by
  induction run with
  | refl => exact ⟨[], s', rfl, .refl, h⟩
  | snoc run step ih =>
      obtain ⟨history', t', hShape, run', hSame⟩ := ih
      obtain ⟨l', u', hLabel, step', hSame'⟩ := step.same hSame
      refine ⟨_, u', ?_, run'.snoc step', hSame'⟩
      have hLast : shape [l'] = shape [_] := congrArg (fun l => [l]) hLabel.unnumbered
      rw [shape_append, shape_append, hShape, hLast]

end

end Tokio
end RestartManager
