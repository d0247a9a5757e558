import RestartManager.Interaction.Transition
import RestartManager.Session.Core

/-! One session handle under concurrent cancellation. An owner holds a strong
reference and any number of cancellers hold weak ones. Every thread runs the
methods of the handle as programs, one native call at a time; a section that
the mutex guards begins when the mutex is free and keeps it until it ends. -/
namespace RestartManager

open Interaction

variable [Platform]

/-- A weak handle whose session is gone. -/
def sessionEndedError : Error := .new .sessionEnded none "the Restart Manager session has already ended"

namespace Cancellation

inductive Agent
  | owner
  | canceller (i : Nat)
  deriving DecidableEq

/-- The program counter of the owner. `leaving` is a core that is dropped
after `end` returned, and `releasing` runs the drop of the handle. -/
inductive OwnerPhase
  | starting (rest : Native (Except Error SessionCore))
  | failed
  | holding
  | ending (rest : Native (SysResult Unit × SessionHandle))
  | leaving
  | releasing (rest : Native Unit)
  | finished

/-- The program counter of a canceller. Outside `idle` and `releasing` it owns
an upgraded reference. -/
inductive CancelPhase
  | idle
  | upgraded
  | cancelling (rest : Native (SysResult Unit))
  | leaving (result : SysResult Unit)
  | releasing (rest : Native Unit) (result : SysResult Unit)

/-- `handle.ended` is the value inside the mutex and `holder` the thread that
has it locked. -/
structure State where
  handle : SessionHandle
  holder : Option Agent
  strong : Nat
  owner : OwnerPhase
  canceller : Nat → CancelPhase

inductive Label
  | call (agent : Agent) (event : Event)
  /-- A `cancel` returns to its caller. -/
  | returned (i : Nat) (result : Except Error Unit)
  | silent

def State.setCanceller (s : State) (i : Nat) (phase : CancelPhase) : State :=
  { s with canceller := Function.update s.canceller i phase }

section

variable (s : State) (i : Nat) (phase : CancelPhase)

@[simp] theorem State.setCanceller_self : (s.setCanceller i phase).canceller i = phase :=
  Function.update_self ..

theorem State.setCanceller_of_ne {j : Nat} (h : j ≠ i) :
    (s.setCanceller i phase).canceller j = s.canceller j := Function.update_of_ne h ..

end

/-- Weak handles exist only for a session that was handed to its owner. -/
def State.Shared (s : State) : Prop :=
  match s.owner with
  | .starting _ | .failed => False
  | _ => True

/-- One step of some thread. -/
inductive Step : State → Label → State → Prop
  | startCall {s : State} {c : Call} {next : c.Response → Native (Except Error SessionCore)}
      {response : c.Response} (h : s.owner = .starting (.call c next)) :
      Step s (.call .owner ⟨c, response⟩) { s with owner := .starting (next response) }
  | started {s : State} {core : SessionCore} (h : s.owner = .starting (.done (.ok core))) :
      Step s .silent { s with handle := core.handle, strong := 1, owner := .holding }
  | startFailed {s : State} {error : Error} (h : s.owner = .starting (.done (.error error))) :
      Step s .silent { s with owner := .failed }
  | lockEnd {s : State} (h : s.owner = .holding) (free : s.holder = none) :
      Step s .silent { s with holder := some .owner, owner := .ending s.handle.end }
  | endCall {s : State} {c : Call} {next : c.Response → Native (SysResult Unit × SessionHandle)}
      {response : c.Response} (h : s.owner = .ending (.call c next)) :
      Step s (.call .owner ⟨c, response⟩) { s with owner := .ending (next response) }
  | unlockEnd {s : State} {result : SysResult Unit} {handle : SessionHandle}
      (h : s.owner = .ending (.done (result, handle))) :
      Step s .silent { s with handle := handle, holder := none, owner := .leaving }
  | ownerRelease {s : State} {n : Nat} (h : s.owner = .holding ∨ s.owner = .leaving)
      (count : s.strong = n + 1) :
      Step s .silent { s with
        strong := n
        owner := if n = 0 then .releasing s.handle.drop else .finished }
  | ownerReleasingCall {s : State} {c : Call} {next : c.Response → Native Unit}
      {response : c.Response} (h : s.owner = .releasing (.call c next)) :
      Step s (.call .owner ⟨c, response⟩) { s with owner := .releasing (next response) }
  | ownerReleased {s : State} (h : s.owner = .releasing (.done ())) :
      Step s .silent { s with owner := .finished }
  | upgrade {s : State} {i : Nat} (h : s.canceller i = .idle) (shared : s.Shared)
      (alive : s.strong ≠ 0) :
      Step s .silent ({ s with strong := s.strong + 1 }.setCanceller i .upgraded)
  | upgradeFailed {s : State} {i : Nat} (h : s.canceller i = .idle) (shared : s.Shared)
      (gone : s.strong = 0) :
      Step s (.returned i (.error sessionEndedError)) s
  | lockCancel {s : State} {i : Nat} (h : s.canceller i = .upgraded) (free : s.holder = none) :
      Step s .silent
        ({ s with holder := some (.canceller i) }.setCanceller i (.cancelling s.handle.cancel.run))
  | cancelCall {s : State} {i : Nat} {c : Call} {next : c.Response → Native (SysResult Unit)}
      {response : c.Response} (h : s.canceller i = .cancelling (.call c next)) :
      Step s (.call (.canceller i) ⟨c, response⟩) (s.setCanceller i (.cancelling (next response)))
  | unlockCancel {s : State} {i : Nat} {result : SysResult Unit}
      (h : s.canceller i = .cancelling (.done result)) :
      Step s .silent ({ s with holder := none }.setCanceller i (.leaving result))
  | cancelRelease {s : State} {i : Nat} {result : SysResult Unit} {n : Nat}
      (h : s.canceller i = .leaving result) (count : s.strong = n + 2) :
      Step s (.returned i (result.mapError mapSysError))
        ({ s with strong := n + 1 }.setCanceller i .idle)
  | cancelLast {s : State} {i : Nat} {result : SysResult Unit}
      (h : s.canceller i = .leaving result) (count : s.strong = 1) :
      Step s .silent ({ s with strong := 0 }.setCanceller i (.releasing s.handle.drop result))
  | cancelReleasingCall {s : State} {i : Nat} {c : Call} {next : c.Response → Native Unit}
      {response : c.Response} {result : SysResult Unit}
      (h : s.canceller i = .releasing (.call c next) result) :
      Step s (.call (.canceller i) ⟨c, response⟩) (s.setCanceller i (.releasing (next response) result))
  | cancelReleased {s : State} {i : Nat} {result : SysResult Unit}
      (h : s.canceller i = .releasing (.done ()) result) :
      Step s (.returned i (result.mapError mapSysError)) (s.setCanceller i .idle)

/-- Before the native start, with the program that starts or joins. -/
def State.init (start : Native (Except Error SessionCore)) : State where
  handle := ⟨0, false⟩
  holder := none
  strong := 0
  owner := .starting start
  canceller _ := .idle

end Cancellation
end RestartManager
