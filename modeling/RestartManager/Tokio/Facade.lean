import Mathlib.Logic.Function.Basic
import RestartManager.Interaction.Transition
import RestartManager.Session.Api
import RestartManager.Tokio.Worker

/-! The asynchronous facade: a client that owns one handle or one future at a
time, a channel of commands, a channel for the outcome of the start, and the
worker thread. The client may drop what it owns at any moment. -/
namespace RestartManager

open Interaction Transition

namespace Tokio

/-! ### Handles and futures -/

/-- The public handles, with what each keeps besides its end of the channel. A
primary session keeps its weak handle for cancellation. -/
inductive Handle
  | session (key : SessionKey) (raw : UInt32)
  | joined (key : SessionKey)
  | pending (shutdown : OperationOutcome)
  | completion (outcome : RecoveryOutcome)
  deriving DecidableEq, Repr

/-- A future that took its handle, with what it needs to build the next. -/
inductive Future
  | shutdown (key : SessionKey) (raw : UInt32)
  | restart
  | restartWithProgress (shutdown : OperationOutcome)
  | leaveStopped
  | endSession
  deriving DecidableEq, Repr

/-- The command that a method sends which borrows its handle. -/
def Handle.borrowed : Handle → Op → Option Command
  | .session _ _, .registerResources resources => some (.primaryRegister resources)
  | .session _ _, .registerFiles files =>
      some (.primaryRegister (files.foldl ResourceBatch.addFile .new))
  | .session _ _, .registerProcesses processes =>
      some (.primaryRegister (processes.foldl ResourceBatch.addProcess .new))
  | .session _ _, .registerServices services =>
      some (.primaryRegister (services.foldl ResourceBatch.addService .new))
  | .session _ _, .affectedApplications => some .primaryAffected
  | .session _ _, .setFilter target action => some (.setFilter target action)
  | .session _ _, .removeFilter target => some (.removeFilter target)
  | .session _ _, .filters => some .filters
  | .joined _, .registerResources resources => some (.joinedRegister resources)
  | .joined _, .registerFiles files =>
      some (.joinedRegister (files.foldl ResourceBatch.addFile .new))
  | .joined _, .registerProcesses processes =>
      some (.joinedRegister (processes.foldl ResourceBatch.addProcess .new))
  | .joined _, .registerServices services =>
      some (.joinedRegister (services.foldl ResourceBatch.addService .new))
  | .completion _, .affectedApplications => some .completionAffected
  | _, _ => none

/-- The command that a method sends which takes its handle, and its future. -/
def Handle.consumed : Handle → Op → Option (Command × Future)
  | .session key raw, .shutdown => some (.shutdown {}, .shutdown key raw)
  | .session key raw, .shutdownWithOptions options => some (.shutdown options, .shutdown key raw)
  | .session key raw, .shutdownWithProgress options .watch =>
      some (.shutdownWithProgress options, .shutdown key raw)
  | .session _ _, .endSession => some (.endPrimary, .endSession)
  | .joined _, .endSession => some (.endJoined, .endSession)
  | .pending _, .restart => some (.restart, .restart)
  | .pending outcome, .restartWithProgress .watch =>
      some (.restartWithProgress, .restartWithProgress outcome)
  | .pending _, .leaveStopped => some (.leaveStopped, .leaveStopped)
  | .completion _, .endSession => some (.endCompletion, .endSession)
  | _, _ => none

/-- The handle in what a future yields for its reply, also inside an error. -/
def Future.handle : Future → Reply → Option Handle
  | .shutdown _ _, .shutdown (.pending outcome) => some (.pending outcome)
  | .shutdown key raw, .shutdown (.recoverable _) => some (.session key raw)
  | .restart, .recovery (.ok outcome) => some (.completion outcome)
  | .restartWithProgress _, .restart (.completed outcome) => some (.completion outcome)
  | .restartWithProgress outcome, .restart (.recoverable _) => some (.pending outcome)
  | .leaveStopped, .recovery (.ok outcome) => some (.completion outcome)
  | _, _ => none

variable [Platform]

/-- How the worker of `start_primary_worker` begins, or that of
`start_joined_worker` with the key it joins. -/
inductive Opening
  | primary
  | joined (key : SessionKey)

/-- The start of the worker, with the handle that the client then builds. -/
def Opening.start : Opening → Native (Except Error (WorkerState × Handle))
  | .primary => do
      return (← RestartSession.new).map fun session =>
        (.primary session, .session session.core.key session.core.handle.raw)
  | .joined key => do
      return (← (JoinedSession.join key).run).map fun session => (.joined session, .joined key)

/-! ### The system -/

/-- What the client owns. A future of a method that borrows its handle is
bound to that handle, and any other one owns it. A method that is `async` sends
at the first poll, so its future is still the handle until then. -/
inductive Client
  | unpolled
  | opening
  | holding (handle : Handle)
  | borrowing (handle : Handle) (ticket : Nat)
  | awaiting (future : Future) (ticket : Nat)
  | cancelling (rest : Native (SysResult Unit))
  | gone

/-- The program counter of the worker thread. -/
inductive WorkerPhase
  | absent
  | opening (rest : Native (Except Error (WorkerState × Handle)))
  | opened (state : WorkerState) (handle : Handle)
  | idle (state : WorkerState)
  | executing (ticket : Nat) (command : Command)
      (rest : Native (Except Payload Reply × WorkerState))
  | dropping (rest : Native Unit)
  | terminated

/-- Commands are numbered as they are sent, and `replies` are their reply
channels. Only a client that is gone has dropped its sender. -/
structure System where
  client : Client
  queue : List (Nat × Command)
  sent : Nat
  init : Option (Except Error Handle)
  worker : WorkerPhase
  replies : Nat → Option Reply

inductive Label
  /-- A native call of the worker. -/
  | call (event : Event)
  /-- A native call of the client, in the drop of a shutdown future. -/
  | cancel (event : Event)
  | send (op : Op) (command : Command)
  | execute (command : Command)
  | answer (ticket : Nat) (reply : Reply)
  /-- A future yields what its reply carries. -/
  | yield (ticket : Nat) (reply : Reply)
  /-- A method or a future reports that the worker is unavailable. -/
  | unavailable
  /-- The client drops its sender. -/
  | abandon
  /-- The worker begins to drop the typestate. -/
  | cleanup
  | silent

/-- One step of the client or of the worker. -/
inductive Step (opening : Opening) : System → Label → System → Prop
  | spawn {s : System} (h : s.client = .unpolled) :
      Step opening s .silent { s with client := .opening, worker := .opening opening.start }
  | spawnFailed {s : System} (h : s.client = .unpolled) :
      Step opening s .unavailable { s with client := .gone }
  | openCall {s : System} {c : Call} {next : c.Response → Native (Except Error (WorkerState × Handle))}
      {response : c.Response} (h : s.worker = .opening (.call c next)) :
      Step opening s (.call ⟨c, response⟩) { s with worker := .opening (next response) }
  | openFailed {s : System} {error : Error} (h : s.worker = .opening (.done (.error error))) :
      Step opening s .silent { s with worker := .terminated, init := some (.error error) }
  | openDone {s : System} {state : WorkerState} {handle : Handle}
      (h : s.worker = .opening (.done (.ok (state, handle)))) :
      Step opening s .silent { s with worker := .opened state handle }
  | initSent {s : System} {state : WorkerState} {handle : Handle}
      (h : s.worker = .opened state handle) (alive : s.client = .opening) :
      Step opening s .silent { s with worker := .idle state, init := some (.ok handle) }
  | initUnsent {s : System} {state : WorkerState} {handle : Handle}
      (h : s.worker = .opened state handle)
      (dropped : s.client ≠ .opening) :
      Step opening s .cleanup { s with worker := .dropping state.drop }
  | openedHandle {s : System} {handle : Handle} (h : s.client = .opening)
      (received : s.init = some (.ok handle)) :
      Step opening s .silent { s with client := .holding handle }
  | openedError {s : System} {error : Error} (h : s.client = .opening)
      (received : s.init = some (.error error)) :
      Step opening s .silent { s with client := .gone }
  | openedNothing {s : System} (h : s.client = .opening) (empty : s.init = none)
      (terminated : s.worker = .terminated) :
      Step opening s .unavailable { s with client := .gone }
  | borrow {s : System} {handle : Handle} {op : Op} {command : Command}
      (h : s.client = .holding handle) (method : handle.borrowed op = some command)
      (alive : s.worker ≠ .terminated) :
      Step opening s (.send op command) { s with
        client := .borrowing handle s.sent
        queue := s.queue ++ [(s.sent, command)]
        sent := s.sent + 1 }
  | borrowFailed {s : System} {handle : Handle} {op : Op} {command : Command}
      (h : s.client = .holding handle) (method : handle.borrowed op = some command)
      (terminated : s.worker = .terminated) : Step opening s .unavailable s
  | borrowReply {s : System} {handle : Handle} {ticket : Nat} {reply : Reply}
      (h : s.client = .borrowing handle ticket) (received : s.replies ticket = some reply) :
      Step opening s (.yield ticket reply) { s with client := .holding handle }
  | borrowLost {s : System} {handle : Handle} {ticket : Nat}
      (h : s.client = .borrowing handle ticket) (empty : s.replies ticket = none)
      (terminated : s.worker = .terminated) :
      Step opening s .unavailable { s with client := .holding handle }
  | borrowDropped {s : System} {handle : Handle} {ticket : Nat}
      (h : s.client = .borrowing handle ticket) :
      Step opening s .silent { s with client := .holding handle }
  | consume {s : System} {handle : Handle} {op : Op} {command : Command} {future : Future}
      (h : s.client = .holding handle) (method : handle.consumed op = some (command, future))
      (alive : s.worker ≠ .terminated) :
      Step opening s (.send op command) { s with
        client := .awaiting future s.sent
        queue := s.queue ++ [(s.sent, command)]
        sent := s.sent + 1 }
  | consumeFailed {s : System} {handle : Handle} {op : Op} {command : Command} {future : Future}
      (h : s.client = .holding handle) (method : handle.consumed op = some (command, future))
      (terminated : s.worker = .terminated) :
      Step opening s .unavailable { s with client := .gone }
  | consumeReply {s : System} {future : Future} {ticket : Nat} {reply : Reply}
      (h : s.client = .awaiting future ticket) (received : s.replies ticket = some reply) :
      Step opening s (.yield ticket reply)
        { s with client := ((future.handle reply).map .holding).getD .gone }
  | consumeLost {s : System} {future : Future} {ticket : Nat}
      (h : s.client = .awaiting future ticket) (empty : s.replies ticket = none)
      (terminated : s.worker = .terminated) :
      Step opening s .unavailable { s with client := .gone }
  /-- A shutdown future cancels before it drops its sender, through whatever
  flag it finds, if it can upgrade its weak handle. -/
  | cancel {s : System} {key : SessionKey} {raw : UInt32} {ticket : Nat} (ended : Bool)
      (h : s.client = .awaiting (.shutdown key raw) ticket) :
      Step opening s .silent { s with client := .cancelling (SessionHandle.mk raw ended).cancel.run }
  | cancelCall {s : System} {c : Call} {next : c.Response → Native (SysResult Unit)}
      {response : c.Response} (h : s.client = .cancelling (.call c next)) :
      Step opening s (.cancel ⟨c, response⟩) { s with client := .cancelling (next response) }
  /-- The client drops a start, a handle or a future, or has cancelled. -/
  | abandon {s : System} (owned : s.client ≠ .gone)
      (cancelled : ∀ c next, s.client ≠ .cancelling (.call c next)) :
      Step opening s .abandon { s with client := .gone }
  | take {s : System} {state : WorkerState} {ticket : Nat} {command : Command}
      {rest : List (Nat × Command)} (h : s.worker = .idle state)
      (queued : s.queue = (ticket, command) :: rest) :
      Step opening s (.execute command) { s with
        queue := rest
        worker := .executing ticket command (executeCommand command state) }
  | executeCall {s : System} {ticket : Nat} {command : Command} {c : Call}
      {next : c.Response → Native (Except Payload Reply × WorkerState)} {response : c.Response}
      (h : s.worker = .executing ticket command (.call c next)) :
      Step opening s (.call ⟨c, response⟩)
        { s with worker := .executing ticket command (next response) }
  | answer {s : System} {ticket : Nat} {command : Command} {reply : Reply} {state : WorkerState}
      (h : s.worker = .executing ticket command (.done (.ok reply, state))) :
      Step opening s (.answer ticket reply) { s with
        worker := .idle state
        replies := Function.update s.replies ticket (some reply) }
  | unwind {s : System} {ticket : Nat} {command : Command} {payload : Payload} {state : WorkerState}
      (h : s.worker = .executing ticket command (.done (.error payload, state))) :
      Step opening s .cleanup { s with worker := .dropping state.drop }
  | disconnect {s : System} {state : WorkerState} (h : s.worker = .idle state)
      (drained : s.queue = []) (dropped : s.client = .gone) :
      Step opening s .cleanup { s with worker := .dropping state.drop }
  | dropCall {s : System} {c : Call} {next : c.Response → Native Unit} {response : c.Response}
      (h : s.worker = .dropping (.call c next)) :
      Step opening s (.call ⟨c, response⟩) { s with worker := .dropping (next response) }
  | terminate {s : System} (h : s.worker = .dropping (.done ())) :
      Step opening s .silent { s with worker := .terminated }

/-- Before the first poll of the start. -/
def System.init₀ : System where
  client := .unpolled
  queue := []
  sent := 0
  init := none
  worker := .absent
  replies _ := none

end Tokio
end RestartManager
