import RestartManager.Tokio.Blocking

/-! The invariant of the facade: what the client owns agrees with the typestate
that the worker reaches once it has executed the commands still in flight, and
the worker is where a blocking program with the same operations would be. -/
namespace RestartManager

open Interaction Contract Program Transition

namespace Tokio

variable [Platform]

/-! ### Histories -/

namespace Label

def call? : Label → Option Event
  | .call event => some event
  | _ => none

def sent? : Label → Option (Op × Command)
  | .send op command => some (op, command)
  | _ => none

def executed? : Label → Option Command
  | .execute command => some command
  | _ => none

def answered? : Label → Option Nat
  | .answer ticket _ => some ticket
  | _ => none

/-- What the recovery monitor sees of the worker. -/
def monitored : Label → Option Entry
  | .call event => some (.call event)
  | .execute .leaveStopped => some (.op .leaveStopped)
  | _ => none

def isCleanup : Label → Bool
  | .cleanup => true
  | _ => false

/-- Steps that neither call Windows for the worker nor move a command on. -/
def Neutral : Label → Prop
  | .call _ | .send .. | .execute _ | .answer .. => False
  | _ => True

end Label

def calls (history : List Label) : Trace := history.filterMap Label.call?

/-- The commands in the order in which they were sent, each with its operation. -/
def sent (history : List Label) : List (Op × Command) := history.filterMap Label.sent?

def executed (history : List Label) : List Command := history.filterMap Label.executed?

def answered (history : List Label) : List Nat := history.filterMap Label.answered?

def entries (history : List Label) : List Entry := history.filterMap Label.monitored

/-- The worker has begun to drop its typestate. -/
def released (history : List Label) : Bool := history.any Label.isCleanup

def monitor (history : List Label) : Monitor := Monitor.init.after (entries history)

section Histories

variable {α : Type} (history : List Label) (l : Label)

/-- Each projection of the history grows by what its last label says. -/
theorem filterMap_snoc (f : Label → Option α) :
    (history ++ [l]).filterMap f = history.filterMap f ++ (f l).toList := by
  rw [List.filterMap_append]
  cases h : f l <;> simp [h]

theorem calls_snoc : calls (history ++ [l]) = calls history ++ l.call?.toList := filterMap_snoc _ _ _

theorem sent_snoc : sent (history ++ [l]) = sent history ++ l.sent?.toList := filterMap_snoc _ _ _

theorem executed_snoc : executed (history ++ [l]) = executed history ++ l.executed?.toList :=
  filterMap_snoc _ _ _

theorem answered_snoc : answered (history ++ [l]) = answered history ++ l.answered?.toList :=
  filterMap_snoc _ _ _

theorem entries_snoc : entries (history ++ [l]) = entries history ++ l.monitored.toList :=
  filterMap_snoc _ _ _

theorem released_snoc : released (history ++ [l]) = (released history || l.isCleanup) := by
  simp [released]

theorem monitor_snoc : monitor (history ++ [l]) = (monitor history).after l.monitored.toList := by
  rw [monitor, entries_snoc, Monitor.after_append, monitor]

end Histories

/-! ### Commands in flight -/

/-- Whatever the commands in flight do, `final` holds of the last reply and of
the typestate they leave, and each command is one that a handle which matches
the typestate before it sends. -/
def InFlight (final : Option Reply → WorkerState → Prop) :
    List (Op × Command) → Option Reply → WorkerState → Prop
  | [], last, state => final last state
  | (op, command) :: rest, _, state =>
      (∃ handle : Handle, handle.Matches state ∧ handle.Sends op command) ∧
      ∃ p, perform state.value op = some p ∧
        Related (fun result answer => ∃ reply, Answers result answer reply ∧
          InFlight final rest (some reply) answer.2) p (executeCommand command state)

/-- What the client owns fits the last reply and the typestate. -/
def Client.Fits (client : Client) (init : Option (Except Error Handle)) (last : Option Reply)
    (state : WorkerState) : Prop :=
  match client with
  | .unpolled => False
  | .opening => ∃ handle : Handle, init = some (.ok handle) ∧ handle.Matches state
  | .holding handle => handle.Matches state
  | .borrowing handle _ => handle.Matches state
  | .awaiting future _ => ∃ reply, last = some reply ∧ future.Resolves reply state
  | .cancelling _ => ∃ handle : Handle, handle.Matches state
  | .gone => True

section InFlight

variable {final final' : Option Reply → WorkerState → Prop} {flight : List (Op × Command)}
  {last : Option Reply} {state : WorkerState}

/-- What the last reply must satisfy may be weakened. -/
theorem InFlight.mono (h : InFlight final flight last state)
    (hFinal : ∀ last state, final last state → final' last state) :
    InFlight final' flight last state := by
  induction flight generalizing last state with
  | nil => exact hFinal last state h
  | cons pair rest ih =>
      obtain ⟨hSends, p, method, related⟩ := h
      refine ⟨hSends, p, method, related.mono ?_⟩
      rintro result answer ⟨reply, hAnswers, hRest⟩
      exact ⟨reply, hAnswers, ih hRest⟩

/-- One more command is sent after those in flight. -/
theorem InFlight.snoc {op : Op} {command : Command} (h : InFlight final flight last state)
    (hFinal : ∀ last state, final last state → InFlight final' [(op, command)] last state) :
    InFlight final' (flight ++ [(op, command)]) last state := by
  induction flight generalizing last state with
  | nil => exact hFinal last state h
  | cons pair rest ih =>
      obtain ⟨hSends, p, method, related⟩ := h
      refine ⟨hSends, p, method, related.mono ?_⟩
      rintro result answer ⟨reply, hAnswers, hRest⟩
      exact ⟨reply, hAnswers, ih hRest⟩

variable {handle : Handle} {op : Op} {command : Command}

/-- A borrowing command leaves the worker matching the same handle. -/
theorem InFlight.borrowed {ticket : Nat} {init : Option (Except Error Handle)}
    (hMatches : handle.Matches state) (hSends : handle.borrowed op = some command) :
    InFlight ((Client.borrowing handle ticket).Fits init) [(op, command)] last state := by
  obtain ⟨p, method, related⟩ := borrowed_refines hMatches hSends
  refine ⟨⟨handle, hMatches, .inl hSends⟩, p, method, related.mono ?_⟩
  rintro result answer ⟨reply, hAnswers, hState⟩
  refine ⟨reply, hAnswers, ?_⟩
  change handle.Matches answer.2
  rwa [hState]

/-- A consuming command leaves the worker matching the handle of its future. -/
theorem InFlight.consumed {future : Future} {ticket : Nat} {init : Option (Except Error Handle)}
    (hMatches : handle.Matches state) (hSends : handle.consumed op = some (command, future)) :
    InFlight ((Client.awaiting future ticket).Fits init) [(op, command)] last state := by
  obtain ⟨p, method, related⟩ := consumed_refines hMatches hSends
  refine ⟨⟨handle, hMatches, .inr ⟨future, hSends⟩⟩, p, method, related.mono ?_⟩
  rintro result answer ⟨reply, hAnswers, hResolves⟩
  exact ⟨reply, hAnswers, reply, rfl, hResolves⟩

end InFlight

/-! ### The worker and the blocking program -/

/-- Where the worker is, after the commands `done` and before those in
`flight`, with its native calls, the recovery monitor and the flag that it has
begun to drop what it holds. -/
inductive Stage (opening : Opening) (final : Option Reply → WorkerState → Prop)
    (last : Option Reply) (m : Monitor) :
    WorkerPhase → List (Op × Command) → List (Op × Command) → Trace → Bool → Prop
  | absent (fresh : m = Monitor.init) : Stage opening final last m .absent [] [] [] false
  | opening {trace : Trace} {p : Native (Except Error Value)}
      {rest : Native (Except Error (WorkerState × Handle))} (begun : opening.blocking.Steps trace p)
      (related : Related Opens p rest) (allowed : recoveryContract.wp p Begun m) :
      Stage opening final last m (.opening rest) [] [] trace false
  | opened {trace : Trace} {state : WorkerState} {handle : Handle}
      (begun : Blocking opening [] trace state.value none) (matched : handle.Matches state)
      (fits : state.value.Fits m) :
      Stage opening final last m (.opened state handle) [] [] trace false
  | idle {trace : Trace} {state : WorkerState} {done flight : List (Op × Command)}
      {output : Option Output} (before : Blocking opening (done.map Prod.fst) trace state.value output)
      (inFlight : InFlight final flight last state) (fits : state.value.Fits m) :
      Stage opening final last m (.idle state) done flight trace false
  | executing {trace later : Trace} {value : Value} {done flight : List (Op × Command)}
      {output : Option Output} {op : Op} {command : Command} {p q : Native (Value × Output)}
      {rest : Native (Except Payload Reply × WorkerState)}
      (before : Blocking opening (done.map Prod.fst) trace value output)
      (method : perform value op = some p) (run : p.Steps later q)
      (related : Related (fun result answer => ∃ reply, Answers result answer reply ∧
        InFlight final flight (some reply) answer.2) q rest)
      (allowed : recoveryContract.wp q (fun result m => result.1.Fits m) m) :
      Stage opening final last m (.executing done.length command rest) (done ++ [(op, command)])
        flight (trace ++ later) false
  | dropping {trace later : Trace} {value : Value} {done : List (Op × Command)}
      {output : Option Output} {rest : Native Unit}
      (before : Blocking opening (done.map Prod.fst) trace value output)
      (run : value.drop.Steps later rest)
      (allowed : recoveryContract.wp rest (fun _ m => m.live = none) m) :
      Stage opening final last m (.dropping rest) done [] (trace ++ later) true
  | failed {trace : Trace} {error : Error} (begun : opening.blocking.Exec trace (.error error))
      (closed : m.live = none) : Stage opening final last m .terminated [] [] trace false
  | terminated {trace later : Trace} {value : Value} {done : List (Op × Command)}
      {output : Option Output} (before : Blocking opening (done.map Prod.fst) trace value output)
      (run : value.drop.Exec later ()) (closed : m.live = none) :
      Stage opening final last m .terminated done [] (trace ++ later) true

/-- Which part of the protocol the client is in, for each phase of the worker. -/
def System.Coupled (s : System) : Prop :=
  (match s.worker with
    | .absent => (s.client = .unpolled ∨ s.client = .gone) ∧ s.init = none
    | .opening _ | .opened _ _ => (s.client = .opening ∨ s.client = .gone) ∧ s.init = none
    | .idle _ | .executing .. => s.client ≠ .unpolled
    | .dropping _ => s.client = .gone
    | .terminated => s.client = .gone ∨ (s.client = .opening ∧ ∃ error, s.init = some (.error error))) ∧
  ∀ future ticket, s.client = .awaiting future ticket → ticket + 1 = s.sent

/-- The number of commands taken and not yet answered. -/
def WorkerPhase.busy : WorkerPhase → Nat
  | .executing .. => 1
  | _ => 0

/-- The reply to the last of the commands that were taken. -/
def lastReply (replies : Nat → Option Reply) : Nat → Option Reply
  | 0 => none
  | ticket + 1 => replies ticket

/-- The invariant, with the commands taken and those in flight. -/
structure Pipeline (opening : Opening) (history : List Label) (s : System)
    (done flight : List (Op × Command)) : Prop where
  sent_eq : sent history = done ++ flight
  executed_eq : executed history = done.map Prod.snd
  answered_eq : answered history = List.range (done.length - s.worker.busy)
  queue_eq : s.queue = (flight.zipIdx done.length).map fun x => (x.2, x.1.2)
  count_eq : s.sent = done.length + flight.length
  unanswered : ∀ ticket, done.length - s.worker.busy ≤ ticket → s.replies ticket = none
  stage : Stage opening (s.client.Fits s.init) (lastReply s.replies done.length) (monitor history) s.worker done
    flight (calls history) (released history)
  admits : Monitor.init.Admits (entries history)
  coupled : s.Coupled

variable {opening : Opening} {history : List Label} {s t : System} {l : Label}
  {done flight : List (Op × Command)}

/-! ### Steps of the client -/

/-- A neutral label is seen by no projection. -/
theorem Label.Neutral.projections (h : l.Neutral) : l.call? = none ∧ l.sent? = none ∧
    l.executed? = none ∧ l.answered? = none ∧ l.monitored = none := by
  cases l <;> first | exact h.elim | exact ⟨rfl, rfl, rfl, rfl, rfl⟩

/-- A stage does not depend on the client beyond what it waits for. -/
theorem Stage.mono {final final' : Option Reply → WorkerState → Prop} {last : Option Reply}
    {m : Monitor} {worker : WorkerPhase} {trace : Trace} {flag : Bool}
    (h : Stage opening final last m worker done flight trace flag)
    (hFinal : ∀ last state, final last state → final' last state) :
    Stage opening final' last m worker done flight trace flag := by
  cases h with
  | absent fresh => exact .absent fresh
  | opening begun related allowed => exact .opening begun related allowed
  | opened begun matched fits => exact .opened begun matched fits
  | idle before inFlight fits => exact .idle before (inFlight.mono hFinal) fits
  | executing before method run related allowed =>
      refine .executing before method run (related.mono ?_) allowed
      rintro result answer ⟨reply, hAnswers, hRest⟩
      exact ⟨reply, hAnswers, hRest.mono hFinal⟩
  | dropping before run allowed => exact .dropping before run allowed
  | failed begun closed => exact .failed begun closed
  | terminated before run closed => exact .terminated before run closed

/-- A step that leaves the channel and the replies alone. -/
theorem Pipeline.quiet (h : Pipeline opening history s done flight) (hCoupled : t.Coupled)
    (hQueue : t.queue = s.queue) (hCount : t.sent = s.sent) (hReplies : t.replies = s.replies)
    (hBusy : t.worker.busy = s.worker.busy) (hSent : l.sent? = none) (hExecuted : l.executed? = none)
    (hAnswered : l.answered? = none)
    (hStage : Stage opening (t.client.Fits t.init) (lastReply s.replies done.length) (monitor (history ++ [l]))
      t.worker done flight (calls (history ++ [l])) (released (history ++ [l])))
    (hAdmits : (monitor history).Admits l.monitored.toList) :
    Pipeline opening (history ++ [l]) t done flight where
  sent_eq := by simp [sent_snoc, hSent, h.sent_eq]
  executed_eq := by simp [executed_snoc, hExecuted, h.executed_eq]
  answered_eq := by simp [answered_snoc, hAnswered, h.answered_eq, hBusy]
  queue_eq := hQueue.trans h.queue_eq
  count_eq := hCount.trans h.count_eq
  unanswered := by
    rw [hBusy, hReplies]
    exact h.unanswered
  stage := by rwa [hReplies]
  admits := by
    rw [entries_snoc, Monitor.admits_append]
    exact ⟨h.admits, hAdmits⟩
  coupled := hCoupled

/-- A step that no projection sees. -/
theorem Pipeline.neutral (h : Pipeline opening history s done flight) (hCoupled : t.Coupled)
    (hNeutral : l.Neutral) (hQueue : t.queue = s.queue) (hCount : t.sent = s.sent)
    (hReplies : t.replies = s.replies) (hBusy : t.worker.busy = s.worker.busy)
    (hStage : Stage opening (t.client.Fits t.init) (lastReply s.replies done.length) (monitor history)
      t.worker done flight (calls history) (released history || l.isCleanup)) :
    Pipeline opening (history ++ [l]) t done flight := by
  obtain ⟨hCall, hSent, hExecuted, hAnswered, hEntry⟩ := hNeutral.projections
  apply h.quiet hCoupled hQueue hCount hReplies hBusy hSent hExecuted hAnswered
  · simpa [monitor_snoc, calls_snoc, released_snoc, hCall, hEntry, Monitor.after] using hStage
  · rw [hEntry]
    trivial

/-- A step of the client that only changes what the client owns. -/
theorem Pipeline.client (h : Pipeline opening history s done flight) {client : Client}
    (hNeutral : l.Neutral) (hHeld : l.isCleanup = false)
    (hFits : ∀ last state, s.client.Fits s.init last state → client.Fits s.init last state)
    (hCoupled : System.Coupled { s with client := client }) :
    Pipeline opening (history ++ [l]) { s with client := client } done flight := by
  refine h.neutral hCoupled hNeutral rfl rfl rfl rfl ?_
  rw [hHeld, Bool.or_false]
  exact h.stage.mono hFits

/-- A client may be gone in every phase of the worker. -/
theorem System.Coupled.gone (h : s.Coupled) : System.Coupled { s with client := .gone } := by
  obtain ⟨hPhase, -⟩ := h
  refine ⟨?_, by simp⟩
  dsimp only
  split <;> simp_all

/-- The client has its handle, or a future of it. -/
def Client.Owns : Client → Prop
  | .unpolled | .opening | .gone => False
  | .holding _ | .borrowing .. | .awaiting .. | .cancelling _ => True

/-- A client that owns something has polled, has been opened and is not gone. -/
theorem Client.Owns.ne {client : Client} (h : client.Owns) :
    client ≠ .unpolled ∧ client ≠ .opening ∧ client ≠ .gone := by
  refine ⟨?_, ?_, ?_⟩ <;> (rintro rfl; exact h)

/-- A client that owns its handle is served. -/
theorem System.Coupled.served (h : s.Coupled) (hOwns : s.client.Owns) :
    (∃ state, s.worker = .idle state) ∨
      ∃ ticket command rest, s.worker = .executing ticket command rest := by
  obtain ⟨hUnpolled, hOpening, hGone⟩ := hOwns.ne
  obtain ⟨hPhase, -⟩ := h
  cases hWorker : s.worker with
  | idle state => exact .inl ⟨state, rfl⟩
  | executing ticket command rest => exact .inr ⟨ticket, command, rest, rfl⟩
  | absent => simp_all
  | opening rest => simp_all
  | opened state handle => simp_all
  | dropping rest => simp_all
  | terminated => simp_all

/-- With a worker that serves, only the ticket of the client is left to check. -/
theorem System.Coupled.of_served {client : Client} {sent : Nat} {queue : List (Nat × Command)}
    (hServed : (∃ state, s.worker = .idle state) ∨
      ∃ ticket command rest, s.worker = .executing ticket command rest)
    (hUnpolled : client ≠ .unpolled)
    (hTicket : ∀ future ticket, client = .awaiting future ticket → ticket + 1 = sent) :
    System.Coupled { s with client := client, sent := sent, queue := queue } := by
  refine ⟨?_, hTicket⟩
  rcases hServed with ⟨state, hWorker⟩ | ⟨ticket, command, rest, hWorker⟩
  · simpa [hWorker] using hUnpolled
  · simpa [hWorker] using hUnpolled

/-- The client gives up what it owns. -/
theorem Pipeline.gone (h : Pipeline opening history s done flight) (hNeutral : l.Neutral)
    (hHeld : l.isCleanup = false) :
    Pipeline opening (history ++ [l]) { s with client := .gone } done flight :=
  h.client hNeutral hHeld (fun _ _ _ => trivial) h.coupled.gone

/-- The client keeps its handle and waits for no reply. -/
theorem Pipeline.owned (h : Pipeline opening history s done flight) {client : Client}
    (hNeutral : l.Neutral) (hHeld : l.isCleanup = false) (hOwns : s.client.Owns) (hAfter : client.Owns)
    (hTicket : ∀ future ticket, client ≠ .awaiting future ticket)
    (hFits : ∀ last state, s.client.Fits s.init last state → client.Fits s.init last state) :
    Pipeline opening (history ++ [l]) { s with client := client } done flight := by
  apply h.client hNeutral hHeld hFits
  apply System.Coupled.of_served (h.coupled.served hOwns) hAfter.ne.1
  exact fun future ticket hClient => absurd hClient (hTicket future ticket)

/-- A command joins the ones in flight. -/
theorem Stage.send {final final' : Option Reply → WorkerState → Prop} {last : Option Reply}
    {m : Monitor} {worker : WorkerPhase} {trace : Trace} {flag : Bool} {op : Op} {command : Command}
    (h : Stage opening final last m worker done flight trace flag)
    (hServed : (∃ state, worker = .idle state) ∨
      ∃ ticket command rest, worker = .executing ticket command rest)
    (hFinal : ∀ last state, final last state → InFlight final' [(op, command)] last state) :
    Stage opening final' last m worker done (flight ++ [(op, command)]) trace flag := by
  cases h with
  | idle before inFlight fits => exact .idle before (inFlight.snoc hFinal) fits
  | executing before method run related allowed =>
      refine .executing before method run (related.mono ?_) allowed
      rintro result answer ⟨reply, hAnswers, hRest⟩
      exact ⟨reply, hAnswers, hRest.snoc hFinal⟩
  | absent fresh => simp at hServed
  | opening begun related allowed => simp at hServed
  | opened begun matched fits => simp at hServed
  | dropping before run allowed => simp at hServed
  | failed begun closed => simp at hServed
  | terminated before run closed => simp at hServed

/-- The client sends a command, whether it borrows the handle or consumes it. -/
theorem Pipeline.send (h : Pipeline opening history s done flight) {client : Client} {op : Op}
    {command : Command}
    (hServed : (∃ state, s.worker = .idle state) ∨
      ∃ ticket command rest, s.worker = .executing ticket command rest)
    (hUnpolled : client ≠ .unpolled)
    (hTicket : ∀ future ticket, client = .awaiting future ticket → ticket = s.sent)
    (hFits : ∀ last state, s.client.Fits s.init last state →
      InFlight (client.Fits s.init) [(op, command)] last state) :
    Pipeline opening (history ++ [.send op command])
      { s with client := client, queue := s.queue ++ [(s.sent, command)], sent := s.sent + 1 }
      done (flight ++ [(op, command)]) where
  sent_eq := by simp [sent_snoc, Label.sent?, h.sent_eq]
  executed_eq := by simp [executed_snoc, Label.executed?, h.executed_eq]
  answered_eq := by simp [answered_snoc, Label.answered?, h.answered_eq]
  queue_eq := by simp [List.zipIdx_append, h.queue_eq, h.count_eq]
  count_eq := by simp [h.count_eq, Nat.add_assoc]
  unanswered := h.unanswered
  stage := by
    have hStage := h.stage.send hServed hFits
    rw [monitor_snoc, calls_snoc, released_snoc]
    simpa [Label.call?, Label.monitored, Label.isCleanup, Monitor.after] using hStage
  admits := by simpa [entries_snoc, Label.monitored] using h.admits
  coupled := by
    apply System.Coupled.of_served hServed hUnpolled
    intro future ticket hClient
    rw [hTicket future ticket hClient]

/-! ### Steps of the worker -/

omit [Platform] in
/-- What the worker keeps of a refusal fits the monitor as the refusal did. -/
theorem retained_fits {value : Value} {m : Monitor} (h : value.Fits m) :
    (retained value).Fits m := by
  cases h with
  | session hOpen => exact .session hOpen
  | joined hOpen => exact .joined hOpen
  | pending hOpen => exact .pending hOpen
  | completion hOpen hMet => exact .completion hOpen hMet
  | shutdownNotStarted hOpen => exact .session hOpen
  | restartNotStarted hOpen => exact .pending hOpen
  | gone => exact .gone

/-- The monitor marks a command as it marks the operation that it was sent for. -/
theorem Handle.Sends.mark {handle : Handle} {op : Op} {command : Command}
    (h : handle.Sends op command) (m : Monitor) :
    m.after (Label.execute command).monitored.toList = m.mark op := by
  rcases h with h | ⟨future, h⟩
  · cases handle <;> cases op <;> cases h <;> rfl
  · cases handle <;> cases op <;> first
      | (cases h; rfl)
      | (rename_i callback; cases callback <;> cases h <;> rfl)

/-- The worker takes the first command of the queue. -/
theorem Pipeline.take (h : Pipeline opening history s done flight) {state : WorkerState}
    {ticket : Nat} {command : Command} {rest : List (Nat × Command)} (hWorker : s.worker = .idle state)
    (hQueue : s.queue = (ticket, command) :: rest) :
    ∃ done' flight', Pipeline opening (history ++ [.execute command])
      { s with queue := rest, worker := .executing ticket command (executeCommand command state) }
      done' flight' := by
  have hStage := h.stage
  have hQueued := h.queue_eq
  rw [hWorker] at hStage
  generalize hCalls : calls history = trace, hReleased : released history = flag at hStage
  cases hStage with
  | @idle trace state done flight output before inFlight fits =>
      cases flight with
      | nil => simp [hQueue] at hQueued
      | cons pair flight =>
          obtain ⟨op, command'⟩ := pair
          rw [hQueue, List.zipIdx_cons, List.map_cons, List.cons.injEq, Prod.mk.injEq] at hQueued
          obtain ⟨⟨rfl, rfl⟩, hRest⟩ := hQueued
          obtain ⟨⟨handle, hMatches, hSends⟩, p, method, related⟩ := inFlight
          have hMark := hSends.mark (monitor history)
          refine ⟨done ++ [(op, command)], flight, ?_⟩
          constructor
          case sent_eq => simp [sent_snoc, Label.sent?, h.sent_eq]
          case executed_eq => simp [executed_snoc, Label.executed?, h.executed_eq]
          case answered_eq =>
            simp [answered_snoc, Label.answered?, h.answered_eq, hWorker, WorkerPhase.busy]
          case queue_eq => simpa using hRest
          case count_eq =>
            rw [h.count_eq]
            simp
            omega
          case unanswered => simpa [hWorker, WorkerPhase.busy] using h.unanswered
          case stage =>
            rw [calls_snoc, monitor_snoc, released_snoc, hMark, hCalls, hReleased]
            exact .executing before method (.refl _) related (wp_perform fits method)
          case admits =>
            rw [entries_snoc, Monitor.admits_append]
            refine ⟨h.admits, ?_⟩
            cases command <;> first | trivial | exact ⟨nofun, trivial⟩
          case coupled =>
            obtain ⟨hPhase, hTicket⟩ := h.coupled
            rw [hWorker] at hPhase
            exact ⟨hPhase, hTicket⟩

/-- The worker replies: the operation joins those that the blocking program ran. -/
theorem Pipeline.answer (h : Pipeline opening history s done flight) {ticket : Nat}
    {command : Command} {reply : Reply} {state : WorkerState}
    (hWorker : s.worker = .executing ticket command (.done (.ok reply, state))) :
    Pipeline opening (history ++ [.answer ticket reply])
      { s with worker := .idle state, replies := Function.update s.replies ticket (some reply) }
      done flight := by
  have hStage := h.stage
  rw [hWorker] at hStage
  generalize hCalls : calls history = trace, hReleased : released history = flag at hStage
  cases hStage with
  | executing before method run related allowed =>
      cases related with
      | done hAnswer =>
          obtain ⟨reply', hAnswers, hRest⟩ := hAnswer
          obtain rfl : reply = reply' := Except.ok.inj hAnswers.replied
          obtain ⟨last, hBlocking⟩ := (Blocking.perform before method run).retained
          have hFits : (retained _).Fits _ := retained_fits allowed
          rw [hAnswers.retained] at hBlocking hFits
          constructor
          case sent_eq => simp [sent_snoc, Label.sent?, h.sent_eq]
          case executed_eq => simp [executed_snoc, Label.executed?, h.executed_eq]
          case answered_eq =>
            simp [answered_snoc, Label.answered?, h.answered_eq, hWorker, WorkerPhase.busy,
              List.range_succ]
          case queue_eq => exact h.queue_eq
          case count_eq => exact h.count_eq
          case unanswered =>
            intro ticket hTicket
            have hBusy := h.unanswered ticket
            simp [WorkerPhase.busy, hWorker] at hTicket hBusy
            have hOther : ticket ≠ _ := Nat.ne_of_gt hTicket
            exact (Function.update_of_ne hOther _ _).trans (hBusy (by omega))
          case stage =>
            rw [calls_snoc, monitor_snoc, released_snoc, hCalls, hReleased]
            simp only [Label.call?, Label.monitored, Option.toList, List.append_nil, Monitor.after]
            apply Stage.idle (by simpa using hBlocking) _ hFits
            simpa [lastReply] using hRest
          case admits => simpa [entries_snoc, Label.monitored] using h.admits
          case coupled =>
            obtain ⟨hPhase, hTicket⟩ := h.coupled
            rw [hWorker] at hPhase
            exact ⟨hPhase, hTicket⟩

/-- The first poll starts the worker. -/
theorem Pipeline.spawn (h : Pipeline opening history s done flight) (hClient : s.client = .unpolled) :
    Pipeline opening (history ++ [.silent])
      { s with client := .opening, worker := .opening opening.start } done flight := by
  obtain ⟨hPhase, -⟩ := h.coupled
  have hStage := h.stage
  generalize hCalls : calls history = trace, hReleased : released history = flag at hStage
  generalize hWorker : s.worker = worker at hStage hPhase
  cases hStage with
  | absent fresh =>
      have hCoupled : System.Coupled { s with client := .opening, worker := .opening opening.start } :=
        ⟨⟨.inl rfl, hPhase.2⟩, by simp⟩
      refine h.neutral hCoupled trivial rfl rfl rfl ?_ ?_
      · rw [hWorker]
        rfl
      · rw [hCalls, hReleased, fresh]
        exact .opening (.refl _) opening.start_refines (wp_blocking opening)
  | idle before inFlight fits => exact absurd hClient hPhase
  | executing before method run related allowed => exact absurd hClient hPhase
  | opening begun related allowed => simp [hClient] at hPhase
  | opened begun matched fits => simp [hClient] at hPhase
  | dropping before run allowed => simp [hClient] at hPhase
  | failed begun closed => simp [hClient] at hPhase
  | terminated before run closed => simp [hClient] at hPhase

/-- A native call of the worker. -/
theorem Pipeline.call (h : Pipeline opening history s done flight) {c : Call} {response : c.Response}
    {worker : WorkerPhase} (hBusy : worker.busy = s.worker.busy)
    (hStage : recoveryContract.guarantee (monitor history) c ∧
      Stage opening (s.client.Fits s.init) (lastReply s.replies done.length)
        (recoveryContract.next (monitor history) c response) worker done flight
        (calls history ++ [⟨c, response⟩]) (released history))
    (hCoupled : System.Coupled { s with worker := worker }) :
    Pipeline opening (history ++ [.call ⟨c, response⟩]) { s with worker := worker } done flight := by
  apply h.quiet hCoupled rfl rfl rfl hBusy rfl rfl rfl
  · have hHeld : (released history || (Label.call ⟨c, response⟩).isCleanup) = released history :=
      Bool.or_false _
    rw [monitor_snoc, calls_snoc, released_snoc, hHeld]
    exact hStage.2
  · refine ⟨?_, trivial⟩
    rintro event ⟨⟩
    exact hStage.1

/-- A call of the opening. -/
theorem Pipeline.openCall (h : Pipeline opening history s done flight) {c : Call}
    {next : c.Response → Native (Except Error (WorkerState × Handle))} {response : c.Response}
    (hWorker : s.worker = .opening (.call c next)) :
    Pipeline opening (history ++ [.call ⟨c, response⟩]) { s with worker := .opening (next response) }
      done flight := by
  have hStage := h.stage
  rw [hWorker] at hStage
  generalize hCalls : calls history = trace, hReleased : released history = flag at hStage
  cases hStage with
  | opening begun related allowed =>
      cases related with
      | call related =>
          apply h.call (by rw [hWorker]; rfl)
          · rw [hCalls, hReleased]
            exact ⟨allowed.1, .opening (begun.snoc response) (related response)
              (allowed.2 response trivial)⟩
          · simpa [System.Coupled, hWorker] using h.coupled

/-- A call of the command that is being executed. -/
theorem Pipeline.executeCall (h : Pipeline opening history s done flight) {ticket : Nat}
    {command : Command} {c : Call}
    {next : c.Response → Native (Except Payload Reply × WorkerState)} {response : c.Response}
    (hWorker : s.worker = .executing ticket command (.call c next)) :
    Pipeline opening (history ++ [.call ⟨c, response⟩])
      { s with worker := .executing ticket command (next response) } done flight := by
  have hStage := h.stage
  rw [hWorker] at hStage
  generalize hCalls : calls history = trace, hReleased : released history = flag at hStage
  cases hStage with
  | executing before method run related allowed =>
      cases related with
      | call related =>
          apply h.call (by rw [hWorker]; rfl)
          · rw [hCalls, hReleased, List.append_assoc]
            exact ⟨allowed.1, .executing before method (run.snoc response) (related response)
              (allowed.2 response trivial)⟩
          · simpa [System.Coupled, hWorker] using h.coupled

/-- A call of the drop. -/
theorem Pipeline.dropCall (h : Pipeline opening history s done flight) {c : Call}
    {next : c.Response → Native Unit} {response : c.Response}
    (hWorker : s.worker = .dropping (.call c next)) :
    Pipeline opening (history ++ [.call ⟨c, response⟩]) { s with worker := .dropping (next response) }
      done flight := by
  have hStage := h.stage
  rw [hWorker] at hStage
  generalize hCalls : calls history = trace, hReleased : released history = flag at hStage
  cases hStage with
  | dropping before run allowed =>
      apply h.call (by rw [hWorker]; rfl)
      · rw [hCalls, hReleased, List.append_assoc]
        exact ⟨allowed.1, .dropping before (run.snoc response) (allowed.2 response trivial)⟩
      · simpa [System.Coupled, hWorker] using h.coupled

/-- A step of the worker that makes no call. -/
theorem Pipeline.move (h : Pipeline opening history s done flight) {worker : WorkerPhase}
    {init : Option (Except Error Handle)} (hNeutral : l.Neutral)
    (hBusy : worker.busy = s.worker.busy)
    (hStage : Stage opening (s.client.Fits init) (lastReply s.replies done.length) (monitor history)
      worker done flight (calls history) (released history || l.isCleanup))
    (hCoupled : System.Coupled { s with worker := worker, init := init }) :
    Pipeline opening (history ++ [l]) { s with worker := worker, init := init } done flight :=
  h.neutral hCoupled hNeutral rfl rfl rfl hBusy hStage

/-- A session that did not open is reported, and the worker ends. -/
theorem Pipeline.openFailed (h : Pipeline opening history s done flight) {error : Error}
    (hWorker : s.worker = .opening (.done (.error error))) :
    Pipeline opening (history ++ [.silent])
      { s with worker := .terminated, init := some (.error error) } done flight := by
  have hStage := h.stage
  obtain ⟨hPhase, hTicket⟩ := h.coupled
  rw [hWorker] at hStage hPhase
  generalize hCalls : calls history = trace, hReleased : released history = flag at hStage
  cases hStage with
  | opening begun related allowed =>
      cases related with
      | done hOpens =>
          obtain ⟨rfl, -⟩ := hOpens
          refine h.move trivial (by rw [hWorker]; rfl) ?_ ?_
          · rw [hCalls, hReleased]
            exact .failed begun allowed
          · refine ⟨?_, hTicket⟩
            rcases hPhase.1 with hClient | hClient
            · exact .inr ⟨hClient, error, rfl⟩
            · exact .inl hClient

/-- The opening returns its handle. -/
theorem Pipeline.openDone (h : Pipeline opening history s done flight) {state : WorkerState}
    {handle : Handle} (hWorker : s.worker = .opening (.done (.ok (state, handle)))) :
    Pipeline opening (history ++ [.silent]) { s with worker := .opened state handle } done flight := by
  have hStage := h.stage
  obtain ⟨hPhase, hTicket⟩ := h.coupled
  rw [hWorker] at hStage hPhase
  generalize hCalls : calls history = trace, hReleased : released history = flag at hStage
  cases hStage with
  | opening begun related allowed =>
      cases related with
      | done hOpens =>
          obtain ⟨rfl, hMatches⟩ := hOpens
          refine h.move trivial (by rw [hWorker]; rfl) ?_ ?_
          · rw [hCalls, hReleased]
            exact .opened (.opened begun) (hMatches state handle rfl) allowed
          · exact ⟨hPhase, hTicket⟩

/-- The handle reaches a client that still waits for it. -/
theorem Pipeline.initSent (h : Pipeline opening history s done flight) {state : WorkerState}
    {handle : Handle} (hWorker : s.worker = .opened state handle) (hClient : s.client = .opening) :
    Pipeline opening (history ++ [.silent])
      { s with worker := .idle state, init := some (.ok handle) } done flight := by
  have hStage := h.stage
  rw [hWorker] at hStage
  generalize hCalls : calls history = trace, hReleased : released history = flag at hStage
  cases hStage with
  | opened begun matched fits =>
      refine h.move trivial (by rw [hWorker]; rfl) ?_ ?_
      · rw [hCalls, hReleased]
        apply Stage.idle begun _ fits
        rw [hClient]
        exact ⟨handle, rfl, matched⟩
      · refine ⟨?_, ?_⟩
        · simp [hClient]
        · simp [hClient]

/-- The worker drops its typestate, which the client no longer waits for. -/
theorem Stage.drop {final : Option Reply → WorkerState → Prop} {last : Option Reply} {m : Monitor}
    {trace : Trace} {state : WorkerState} {output : Option Output}
    (before : Blocking opening (done.map Prod.fst) trace state.value output)
    (fits : state.value.Fits m) :
    Stage opening final last m (.dropping state.drop) done [] trace true := by
  rw [WorkerState.drop_eq]
  rw [← List.append_nil trace]
  exact .dropping before (.refl _) (wp_value_drop fits)

/-- It is dropped when the client has gone. -/
theorem Pipeline.initUnsent (h : Pipeline opening history s done flight) {state : WorkerState}
    {handle : Handle} (hWorker : s.worker = .opened state handle) (hClient : s.client ≠ .opening) :
    Pipeline opening (history ++ [.cleanup]) { s with worker := .dropping state.drop } done flight := by
  have hStage := h.stage
  obtain ⟨hPhase, hTicket⟩ := h.coupled
  rw [hWorker] at hStage hPhase
  generalize hCalls : calls history = trace, hReleased : released history = flag at hStage
  cases hStage with
  | opened begun matched fits =>
      refine h.move trivial (by rw [hWorker]; rfl) ?_ ?_
      · rw [hCalls, hReleased]
        exact .drop begun fits
      · exact ⟨hPhase.1.resolve_left hClient, hTicket⟩

/-- No callback of the worker panics, so a command is always answered. -/
theorem Pipeline.no_unwind (h : Pipeline opening history s done flight) {ticket : Nat}
    {command : Command} {payload : Payload} {state : WorkerState}
    (hWorker : s.worker = .executing ticket command (.done (.error payload, state))) : False := by
  have hStage := h.stage
  rw [hWorker] at hStage
  generalize calls history = trace, released history = flag at hStage
  cases hStage with
  | executing before method run related allowed =>
      cases related with
      | done hAnswer =>
          obtain ⟨reply, hAnswers, -⟩ := hAnswer
          cases hAnswers.replied

/-- The worker drops its session when the queue is empty and closed. -/
theorem Pipeline.disconnect (h : Pipeline opening history s done flight) {state : WorkerState}
    (hWorker : s.worker = .idle state) (hQueue : s.queue = []) (hClient : s.client = .gone) :
    Pipeline opening (history ++ [.cleanup]) { s with worker := .dropping state.drop } done flight := by
  have hStage := h.stage
  have hQueued := h.queue_eq
  rw [hQueue] at hQueued
  obtain rfl : flight = [] := by simpa using hQueued
  rw [hWorker] at hStage
  generalize hCalls : calls history = trace, hReleased : released history = flag at hStage
  cases hStage with
  | idle before inFlight fits =>
      refine h.move trivial (by rw [hWorker]; rfl) ?_ ?_
      · rw [hCalls, hReleased]
        exact .drop before fits
      · exact ⟨hClient, h.coupled.2⟩

/-- The drop has returned. -/
theorem Pipeline.terminate (h : Pipeline opening history s done flight)
    (hWorker : s.worker = .dropping (.done ())) :
    Pipeline opening (history ++ [.silent]) { s with worker := .terminated } done flight := by
  have hStage := h.stage
  obtain ⟨hPhase, hTicket⟩ := h.coupled
  rw [hWorker] at hStage hPhase
  generalize hCalls : calls history = trace, hReleased : released history = flag at hStage
  cases hStage with
  | dropping before run allowed =>
      refine h.move trivial (by rw [hWorker]; rfl) ?_ ?_
      · rw [hCalls, hReleased]
        exact .terminated before run allowed
      · exact ⟨.inl hPhase, hTicket⟩

/-! ### Replies -/

/-- When the last command that was sent is answered, nothing is in flight. -/
theorem Pipeline.drained (h : Pipeline opening history s done flight) {ticket : Nat} {reply : Reply}
    (hTicket : ticket + 1 = s.sent) (hReply : s.replies ticket = some reply) :
    flight = [] ∧ s.worker.busy = 0 ∧ lastReply s.replies done.length = some reply := by
  have hAnswered : ticket < done.length - s.worker.busy := by
    by_contra hLate
    simp [h.unanswered ticket (by omega)] at hReply
  have hCount := h.count_eq
  have hFlight : flight.length = 0 := by omega
  have hLength : done.length = ticket + 1 := by omega
  refine ⟨List.eq_nil_of_length_eq_zero hFlight, by omega, ?_⟩
  rw [hLength]
  exact hReply

/-- The future that owns the handle builds the next one from its reply. -/
theorem Pipeline.resolves (h : Pipeline opening history s done flight) {future : Future}
    {ticket : Nat} {reply : Reply} (hClient : s.client = .awaiting future ticket)
    (hReply : s.replies ticket = some reply) :
    ∃ state, s.worker = .idle state ∧ future.Resolves reply state := by
  obtain ⟨rfl, hBusy, hLast⟩ := h.drained (h.coupled.2 future ticket hClient) hReply
  have hStage := h.stage
  have hOwns : s.client.Owns := by rw [hClient]; trivial
  rcases h.coupled.served hOwns with ⟨state, hWorker⟩ | ⟨_, _, _, hWorker⟩
  · rw [hWorker] at hStage
    generalize calls history = trace, released history = flag at hStage
    cases hStage with
    | idle before inFlight fits =>
        rw [hClient] at inFlight
        obtain ⟨reply', hReply', hResolves⟩ := inFlight
        rw [hLast, Option.some.injEq] at hReply'
        exact ⟨state, hWorker, hReply' ▸ hResolves⟩
  · simp [hWorker, WorkerPhase.busy] at hBusy

/-- A consuming future takes its reply, and its client goes on with the handle in it. -/
theorem Pipeline.consumeReply (h : Pipeline opening history s done flight) {future : Future}
    {ticket : Nat} {reply : Reply} (hClient : s.client = .awaiting future ticket)
    (hReply : s.replies ticket = some reply) :
    Pipeline opening (history ++ [.yield ticket reply])
      { s with client := ((future.handle reply).map .holding).getD .gone } done flight := by
  obtain ⟨state, hWorker, hResolves⟩ := h.resolves hClient hReply
  obtain ⟨rfl, -, -⟩ := h.drained (h.coupled.2 future ticket hClient) hReply
  cases hHandle : future.handle reply with
  | none => exact h.gone trivial rfl
  | some handle =>
      have hMatches : handle.Matches state := by
        rcases hResolves with ⟨handle', hHandle', hMatches⟩ | ⟨rfl, -⟩
        · rw [hHandle, Option.some.injEq] at hHandle'
          exact hHandle' ▸ hMatches
        · cases hHandle
      have hStage := h.stage
      have hCoupled : System.Coupled { s with client := .holding handle } :=
        .of_served (.inl ⟨state, hWorker⟩) (by simp) (by simp)
      refine h.neutral hCoupled trivial rfl rfl rfl rfl ?_
      rw [hWorker] at hStage ⊢
      generalize calls history = trace, released history = flag at hStage ⊢
      cases hStage with
      | idle before inFlight fits => exact .idle before hMatches fits

/-! ### Runs -/

/-- Nothing has been sent before the first poll. -/
theorem Pipeline.init₀ : Pipeline opening [] .init₀ [] [] where
  sent_eq := rfl
  executed_eq := rfl
  answered_eq := rfl
  queue_eq := rfl
  count_eq := rfl
  unanswered _ _ := rfl
  stage := .absent rfl
  admits := trivial
  coupled := ⟨⟨.inl rfl, rfl⟩, by simp [System.init₀]⟩

/-- Every step keeps the invariant: one case for each rule of the relation. -/
theorem Pipeline.step (h : Pipeline opening history s done flight) (step : Step opening s l t) :
    ∃ done' flight', Pipeline opening (history ++ [l]) t done' flight' := by
  cases step with
  | spawn hClient => exact ⟨_, _, h.spawn hClient⟩
  | spawnFailed hClient => exact ⟨_, _, h.gone trivial rfl⟩
  | openCall hWorker => exact ⟨_, _, h.openCall hWorker⟩
  | openFailed hWorker => exact ⟨_, _, h.openFailed hWorker⟩
  | openDone hWorker => exact ⟨_, _, h.openDone hWorker⟩
  | initSent hWorker hClient => exact ⟨_, _, h.initSent hWorker hClient⟩
  | initUnsent hWorker hClient => exact ⟨_, _, h.initUnsent hWorker hClient⟩
  | openedHandle hClient received =>
      refine ⟨_, _, h.client trivial rfl ?_ ?_⟩
      · intro last state hFits
        rw [hClient] at hFits
        obtain ⟨handle, hInit, hMatches⟩ := hFits
        rw [received, Option.some.injEq, Except.ok.injEq] at hInit
        exact hInit ▸ hMatches
      · obtain ⟨hPhase, -⟩ := h.coupled
        refine ⟨?_, by simp⟩
        dsimp only
        split <;> simp_all
  | openedError hClient received => exact ⟨_, _, h.gone trivial rfl⟩
  | openedNothing hClient empty terminated => exact ⟨_, _, h.gone trivial rfl⟩
  | borrow hClient method alive =>
      have hOwns : s.client.Owns := by rw [hClient]; trivial
      refine ⟨_, _, h.send (h.coupled.served hOwns) (by simp) (by simp) ?_⟩
      rw [hClient]
      intro last state hMatches
      exact .borrowed hMatches method
  | borrowFailed hClient method terminated => exact ⟨_, _, h.client trivial rfl (fun _ _ h => h) h.coupled⟩
  | borrowReply hClient received =>
      have hOwns : s.client.Owns := by rw [hClient]; trivial
      refine ⟨_, _, h.owned trivial rfl hOwns trivial (by simp) ?_⟩
      rw [hClient]
      exact fun _ _ h => h
  | borrowLost hClient empty terminated =>
      have hOwns : s.client.Owns := by rw [hClient]; trivial
      refine ⟨_, _, h.owned trivial rfl hOwns trivial (by simp) ?_⟩
      rw [hClient]
      exact fun _ _ h => h
  | borrowDropped hClient =>
      have hOwns : s.client.Owns := by rw [hClient]; trivial
      refine ⟨_, _, h.owned trivial rfl hOwns trivial (by simp) ?_⟩
      rw [hClient]
      exact fun _ _ h => h
  | consume hClient method alive =>
      have hOwns : s.client.Owns := by rw [hClient]; trivial
      refine ⟨_, _, h.send (h.coupled.served hOwns) (by simp) ?_ ?_⟩
      · rintro _ _ ⟨⟩
        rfl
      · rw [hClient]
        intro last state hMatches
        exact .consumed hMatches method
  | consumeFailed hClient method terminated => exact ⟨_, _, h.gone trivial rfl⟩
  | consumeReply hClient received => exact ⟨_, _, h.consumeReply hClient received⟩
  | consumeLost hClient empty terminated => exact ⟨_, _, h.gone trivial rfl⟩
  | cancel ended hClient =>
      have hOwns : s.client.Owns := by rw [hClient]; trivial
      refine ⟨_, _, h.owned trivial rfl hOwns trivial (by simp) ?_⟩
      rw [hClient]
      intro last state hFits
      obtain ⟨reply, -, hResolves⟩ := hFits
      rcases hResolves with ⟨handle, -, hMatches⟩ | ⟨hFuture, -⟩
      · exact ⟨handle, hMatches⟩
      · cases hFuture
  | cancelCall hClient =>
      have hOwns : s.client.Owns := by rw [hClient]; trivial
      refine ⟨_, _, h.owned trivial rfl hOwns trivial (by simp) ?_⟩
      rw [hClient]
      exact fun _ _ h => h
  | abandon owned cancelled => exact ⟨_, _, h.gone trivial rfl⟩
  | take hWorker queued => exact h.take hWorker queued
  | executeCall hWorker => exact ⟨_, _, h.executeCall hWorker⟩
  | answer hWorker => exact ⟨_, _, h.answer hWorker⟩
  | unwind hWorker => exact (h.no_unwind hWorker).elim
  | disconnect hWorker drained dropped => exact ⟨_, _, h.disconnect hWorker drained dropped⟩
  | dropCall hWorker => exact ⟨_, _, h.dropCall hWorker⟩
  | terminate hWorker => exact ⟨_, _, h.terminate hWorker⟩

/-- The channel holds the commands in flight. -/
theorem Pipeline.queue_commands (h : Pipeline opening history s done flight) :
    s.queue.map Prod.snd = flight.map Prod.snd := by
  rw [h.queue_eq, List.map_map]
  have hCommands : (flight.zipIdx done.length).map (Prod.snd ∘ Prod.fst) = flight.map Prod.snd := by
    rw [← List.map_map, List.zipIdx_map_fst]
  exact hCommands

/-- By induction on the run. -/
theorem Pipeline.of_run (run : Run (Step opening) .init₀ history s) :
    ∃ done flight, Pipeline opening history s done flight := by
  induction run with
  | refl => exact ⟨[], [], .init₀⟩
  | snoc _ step ih =>
      obtain ⟨done, flight, h⟩ := ih
      exact h.step step

end Tokio
end RestartManager
