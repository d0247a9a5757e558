import RestartManager.Tokio.Facade

/-! The futures that take a handle: their fields, how a poll empties them, and
what their drop does with the rest. -/
namespace RestartManager

open Interaction

namespace Tokio

/-- The sender of a session, which is never cloned. -/
structure Worker
  deriving DecidableEq, Repr

inductive Poll (α : Type)
  | pending
  | ready (value : α)

/-- The sender of a reply was dropped. -/
structure RecvError

/-- A handle with its sender. -/
abbrev Owned := Worker × Handle

/-- An asynchronous operation error that may own reusable state. -/
structure AsyncOperationError where
  state : Option Owned
  error : Error

namespace AsyncOperationError

def recoverable (state : Owned) (error : Error) : AsyncOperationError := { state := some state, error }

def unavailable (error : Error) : AsyncOperationError := { state := none, error }

end AsyncOperationError

/-! ### Polls -/

/-- A poll of a future with these fields. They stay as they are when it panics. -/
abbrev PollM (Fields α : Type) := ExceptT Payload (StateM Fields) α

def expect {Fields α : Type} (field : Option α) (message : String) : PollM Fields α :=
  match field with
  | some value => return value
  | none => throw (.expect message)

/-- Dropped before it is ready, it cancels the shutdown. -/
structure ShutdownFuture where
  worker : Option Worker
  key : Option SessionKey
  cancellation : Option UInt32
  cancelOnDrop : Bool
  deriving DecidableEq, Repr

namespace ShutdownFuture

def takeWorker : PollM ShutdownFuture Worker := do
  let this ← get
  set { this with worker := none }
  expect this.worker "future owns its worker"

def takeKey : PollM ShutdownFuture SessionKey := do
  let this ← get
  set { this with key := none }
  expect this.key "future owns its session key"

def takeCancellation : PollM ShutdownFuture UInt32 := do
  let this ← get
  set { this with cancellation := none }
  expect this.cancellation "future owns its cancellation handle"

def disarm : PollM ShutdownFuture Unit := modify fun this => { this with cancelOnDrop := false }

def poll (received : Poll (Except RecvError ShutdownReply)) :
    PollM ShutdownFuture (Poll (Except AsyncOperationError Owned)) :=
  match received with
  | .pending => return .pending
  | .ready (.ok (.pending shutdown)) => do
      disarm
      return .ready (.ok (← takeWorker, .pending shutdown))
  | .ready (.ok (.recoverable error)) => do
      disarm
      let worker ← takeWorker
      let key ← takeKey
      let cancellation ← takeCancellation
      return .ready (.error (.recoverable (worker, .session key cancellation) error))
  | .ready (.ok (.failed error)) => do
      disarm
      return .ready (.error (.unavailable error))
  | .ready (.error _) => do
      disarm
      return .ready (.error (.unavailable workerUnavailable))

/-- What the drop runs before it drops the fields. `upgraded` is the flag that
the weak handle finds, unless its session is gone. -/
def dropBody [Platform] (future : ShutdownFuture) (upgraded : Option Bool) :
    Option (Native (SysResult Unit)) :=
  if future.cancelOnDrop then do
    let raw ← future.cancellation
    let ended ← upgraded
    return (SessionHandle.mk raw ended).cancel.run
  else none

end ShutdownFuture

structure RestartFuture where
  worker : Option Worker
  deriving DecidableEq, Repr

namespace RestartFuture

def takeWorker : PollM RestartFuture Worker := do
  let this ← get
  set { this with worker := none }
  expect this.worker "future owns its worker"

/-- Its errors own no state. -/
def poll (received : Poll (Except RecvError (Except Error RecoveryOutcome))) :
    PollM RestartFuture (Poll (Except AsyncOperationError Owned)) :=
  match received with
  | .pending => return .pending
  | .ready (.ok (.ok outcome)) => do
      return .ready (.ok (← takeWorker, .completion outcome))
  | .ready (.ok (.error error)) => return .ready (.error (.unavailable error))
  | .ready (.error _) => return .ready (.error (.unavailable workerUnavailable))

end RestartFuture

structure RestartWithProgressFuture where
  worker : Option Worker
  shutdown : Option OperationOutcome
  deriving DecidableEq, Repr

namespace RestartWithProgressFuture

def takeWorker : PollM RestartWithProgressFuture Worker := do
  let this ← get
  set { this with worker := none }
  expect this.worker "future owns its worker"

def takeShutdown : PollM RestartWithProgressFuture OperationOutcome := do
  let this ← get
  set { this with shutdown := none }
  expect this.shutdown "future owns its shutdown outcome"

def poll (received : Poll (Except RecvError RestartProgressReply)) :
    PollM RestartWithProgressFuture (Poll (Except AsyncOperationError Owned)) :=
  match received with
  | .pending => return .pending
  | .ready (.ok (.completed outcome)) => do
      return .ready (.ok (← takeWorker, .completion outcome))
  | .ready (.ok (.recoverable error)) => do
      let worker ← takeWorker
      let shutdown ← takeShutdown
      return .ready (.error (.recoverable (worker, .pending shutdown) error))
  | .ready (.ok (.failed error)) => return .ready (.error (.unavailable error))
  | .ready (.error _) => return .ready (.error (.unavailable workerUnavailable))

end RestartWithProgressFuture

/-! ### Any future -/

inductive FutureObject
  | shutdown (future : ShutdownFuture)
  | restart (future : RestartFuture)
  | restartWithProgress (future : RestartWithProgressFuture)
  deriving DecidableEq, Repr

/-- How the methods build their futures. Those of `leave_stopped` and `end` are
`async` functions, which have no fields. -/
def Future.object : Future → Option FutureObject
  | .shutdown key raw => some (.shutdown ⟨some {}, some key, some raw, true⟩)
  | .restart => some (.restart ⟨some {}⟩)
  | .restartWithProgress outcome => some (.restartWithProgress ⟨some {}, some outcome⟩)
  | _ => none

/-- What a channel with replies of one kind shows to its receiver. -/
def Poll.select {α : Type} (kind : Reply → Option α) :
    Poll (Except RecvError Reply) → Option (Poll (Except RecvError α))
  | .pending => some .pending
  | .ready (.ok reply) => (kind reply).map fun value => .ready (.ok value)
  | .ready (.error error) => some (.ready (.error error))

namespace FutureObject

def worker : FutureObject → Option Worker
  | .shutdown future => future.worker
  | .restart future => future.worker
  | .restartWithProgress future => future.worker

/-- Only a shutdown future does more than drop its fields. -/
def dropBody [Platform] (upgraded : Option Bool) : FutureObject → Option (Native (SysResult Unit))
  | .shutdown future => future.dropBody upgraded
  | _ => none

/-- One poll, with the future that it leaves, if the channel has such replies. -/
def poll (object : FutureObject) (received : Poll (Except RecvError Reply)) :
    Option (Except Payload (Poll (Except AsyncOperationError Owned)) × FutureObject) :=
  match object with
  | .shutdown future => do
      let received ← received.select fun
        | .shutdown reply => some reply
        | _ => none
      let (result, future) := (ShutdownFuture.poll received).run.run future
      return (result, .shutdown future)
  | .restart future => do
      let received ← received.select fun
        | .recovery reply => some reply
        | _ => none
      let (result, future) := (RestartFuture.poll received).run.run future
      return (result, .restart future)
  | .restartWithProgress future => do
      let received ← received.select fun
        | .restart reply => some reply
        | _ => none
      let (result, future) := (RestartWithProgressFuture.poll received).run.run future
      return (result, .restartWithProgress future)

end FutureObject

/-- The client after a future was ready. -/
def resumed [Platform] : Except AsyncOperationError Owned → Client
  | .ok (_, handle) => .holding handle
  | .error error => (error.state.map fun owned => .holding owned.2).getD .gone

section

variable {future : Future} {object object' : FutureObject} {upgraded : Option Bool}
  {result : Except Payload (Poll (Except AsyncOperationError Owned))}

theorem poll_pending (h : future.object = some object)
    (hPoll : object.poll .pending = some (result, object')) :
    result = .ok .pending ∧ object' = object := by
  cases future <;> cases h <;> cases hPoll <;> exact ⟨rfl, rfl⟩

/-- A future that is ready has been disarmed, and yields what is built from its reply. -/
theorem poll_ready [Platform] {reply : Reply} (h : future.object = some object)
    (hPoll : object.poll (.ready (.ok reply)) = some (result, object')) :
    object'.dropBody upgraded = none ∧ ∃ yielded, result = .ok (.ready yielded) ∧
      resumed yielded = ((future.handle reply).map .holding).getD .gone := by
  cases future <;> cases h <;> cases reply <;> cases hPoll
  all_goals
    rename_i reply
    cases reply <;> exact ⟨rfl, _, rfl, rfl⟩

theorem poll_closed [Platform] (h : future.object = some object)
    (hPoll : object.poll (.ready (.error {})) = some (result, object')) :
    object'.dropBody upgraded = none ∧
      ∃ error, result = .ok (.ready (.error (.unavailable error))) := by
  cases future <;> cases h <;> cases hPoll <;> exact ⟨rfl, _, rfl⟩

end

end Tokio
end RestartManager
