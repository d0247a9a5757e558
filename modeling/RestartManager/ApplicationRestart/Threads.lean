import Mathlib.Logic.Function.Basic
import RestartManager.ApplicationRestart
import RestartManager.Interaction.Transition

/-! Any number of threads that register, update, unregister and drop
registrations. The flag is one for the whole process, and so is the
registration that Windows keeps. -/
namespace RestartManager

open Interaction Transition

namespace ApplicationRestart

/-! ### What the threads share -/

/-- The registration that Windows keeps for the process. -/
structure NativeRegistration where
  commandLine : Option WideString
  flags : UInt32
  deriving DecidableEq, Repr

def NativeRegistration.of (options : ApplicationRestartOptions) : NativeRegistration where
  commandLine := nativeCommandLine options.arguments
  flags := options.nativeFlags

structure Shared where
  owned : Bool
  windows : Option NativeRegistration
  deriving DecidableEq, Repr

namespace Shared

/-- A native call may fail at any time; an exchange fails only when the flag is set. -/
def Answers (s : Shared) : (c : RestartCall) → c.Response → Prop
  | .compareExchange, exchanged => exchanged = !s.owned
  | _, _ => True

/-- A native call that fails leaves the registration unchanged. -/
def after (s : Shared) : (c : RestartCall) → c.Response → Shared
  | .compareExchange, exchanged => { s with owned := s.owned || exchanged }
  | .store value, _ => { s with owned := value }
  | .registerApplicationRestart commandLine flags, result =>
      if result ≥ 0 then { s with windows := some ⟨commandLine, flags⟩ } else s
  | .unregisterApplicationRestart, result => if result ≥ 0 then { s with windows := none } else s

end Shared

/-! ### The threads -/

/-- The life of one call of `register` and of the registration it returns. -/
inductive Phase
  | idle
  | registering (options : ApplicationRestartOptions)
      (rest : RestartM (Except Error ApplicationRestartRegistration))
  | owning (registration : ApplicationRestartRegistration)
  | updating (registration : ApplicationRestartRegistration) (options : ApplicationRestartOptions)
      (rest : RestartM (Except Error Unit × ApplicationRestartRegistration))
  | unregistering (registration : ApplicationRestartRegistration) (rest : RestartM (Except Error Unit))
  | dropping (registration : ApplicationRestartRegistration) (rest : RestartM Unit)
  | gone

structure State where
  shared : Shared
  phase : Nat → Phase

def State.setPhase (s : State) (i : Nat) (phase : Phase) : State :=
  { s with phase := Function.update s.phase i phase }

inductive Label
  | register (i : Nat) (options : ApplicationRestartOptions)
  | update (i : Nat) (options : ApplicationRestartOptions)
  | unregister (i : Nat)
  | drop (i : Nat)
  | call (i : Nat) (event : Interaction.Event RestartCall.Response)
  /-- A call of `register` or `update` with these options returns. -/
  | returned (i : Nat) (options : ApplicationRestartOptions) (result : Except Error Unit)
  /-- The registration is gone. -/
  | ended (i : Nat)

/-- One step of some thread. -/
inductive Step : State → Label → State → Prop
  | register {s : State} {i : Nat} (options : ApplicationRestartOptions) (h : s.phase i = .idle) :
      Step s (.register i options)
        (s.setPhase i (.registering options (ApplicationRestartRegistration.register options)))
  | registerCall {s : State} {i : Nat} {options : ApplicationRestartOptions} {c : RestartCall}
      {next : c.Response → RestartM (Except Error ApplicationRestartRegistration)}
      {response : c.Response} (h : s.phase i = .registering options (.call c next))
      (answered : s.shared.Answers c response) :
      Step s (.call i ⟨c, response⟩) ({ s with shared := s.shared.after c response }.setPhase i
        (.registering options (next response)))
  | registered {s : State} {i : Nat} {options : ApplicationRestartOptions}
      {registration : ApplicationRestartRegistration}
      (h : s.phase i = .registering options (.done (.ok registration))) :
      Step s (.returned i options (.ok ())) (s.setPhase i (.owning registration))
  | refused {s : State} {i : Nat} {options : ApplicationRestartOptions} {error : Error}
      (h : s.phase i = .registering options (.done (.error error))) :
      Step s (.returned i options (.error error)) (s.setPhase i .gone)
  | update {s : State} {i : Nat} {registration : ApplicationRestartRegistration}
      (options : ApplicationRestartOptions) (h : s.phase i = .owning registration) :
      Step s (.update i options)
        (s.setPhase i (.updating registration options (registration.update options)))
  | updateCall {s : State} {i : Nat} {registration : ApplicationRestartRegistration}
      {options : ApplicationRestartOptions} {c : RestartCall}
      {next : c.Response → RestartM (Except Error Unit × ApplicationRestartRegistration)}
      {response : c.Response} (h : s.phase i = .updating registration options (.call c next))
      (answered : s.shared.Answers c response) :
      Step s (.call i ⟨c, response⟩) ({ s with shared := s.shared.after c response }.setPhase i
        (.updating registration options (next response)))
  | updated {s : State} {i : Nat} {registration registration' : ApplicationRestartRegistration}
      {options : ApplicationRestartOptions} {result : Except Error Unit}
      (h : s.phase i = .updating registration options (.done (result, registration'))) :
      Step s (.returned i options result) (s.setPhase i (.owning registration'))
  | unregister {s : State} {i : Nat} {registration : ApplicationRestartRegistration}
      (h : s.phase i = .owning registration) :
      Step s (.unregister i) (s.setPhase i (.unregistering registration registration.unregister))
  | unregisterCall {s : State} {i : Nat} {registration : ApplicationRestartRegistration}
      {c : RestartCall} {next : c.Response → RestartM (Except Error Unit)} {response : c.Response}
      (h : s.phase i = .unregistering registration (.call c next))
      (answered : s.shared.Answers c response) :
      Step s (.call i ⟨c, response⟩) ({ s with shared := s.shared.after c response }.setPhase i
        (.unregistering registration (next response)))
  | unregistered {s : State} {i : Nat} {registration : ApplicationRestartRegistration}
      {result : Except Error Unit} (h : s.phase i = .unregistering registration (.done result)) :
      Step s (.ended i) (s.setPhase i .gone)
  | drop {s : State} {i : Nat} {registration : ApplicationRestartRegistration}
      (h : s.phase i = .owning registration) :
      Step s (.drop i) (s.setPhase i (.dropping registration registration.drop))
  | dropCall {s : State} {i : Nat} {registration : ApplicationRestartRegistration}
      {c : RestartCall} {next : c.Response → RestartM Unit} {response : c.Response}
      (h : s.phase i = .dropping registration (.call c next))
      (answered : s.shared.Answers c response) :
      Step s (.call i ⟨c, response⟩) ({ s with shared := s.shared.after c response }.setPhase i
        (.dropping registration (next response)))
  | dropped {s : State} {i : Nat} {registration : ApplicationRestartRegistration}
      (h : s.phase i = .dropping registration (.done ())) :
      Step s (.ended i) (s.setPhase i .gone)

/-- The crate has registered nothing yet; someone else may have. -/
def State.init (windows : Option NativeRegistration) : State where
  shared := { owned := false, windows }
  phase _ := .idle

/-! ### Owners -/

/-- From the exchange of the flag to the store that releases it. -/
def Phase.Holds : Phase → Prop
  | .registering _ (.call .compareExchange _) => False
  | .registering _ (.done (.error _)) => False
  | .registering .. | .owning _ | .updating .. => True
  | .unregistering _ rest => ∃ c next, rest = .call c next
  | .dropping _ rest => ∃ c next, rest = .call c next
  | _ => False

/-- A registration exists whose destructor would unregister it. A teardown
disarms it once its native call has returned. -/
def Phase.Armed : Phase → Prop
  | .registering _ (.done (.ok registration)) => registration.armed = true
  | .owning registration => registration.armed = true
  | .updating registration _ _ => registration.armed = true
  | .unregistering registration rest =>
      registration.armed = true ∧ ∃ next, rest = .call .unregisterApplicationRestart next
  | .dropping registration rest =>
      registration.armed = true ∧ ∃ next, rest = .call .unregisterApplicationRestart next
  | _ => False

/-- The step is a native call of `i`. -/
def Label.CallsWindows (i : Nat) : Label → Prop
  | .call j ⟨.registerApplicationRestart _ _, _⟩ => j = i
  | .call j ⟨.unregisterApplicationRestart, _⟩ => j = i
  | _ => False

/-- Who made the registration that Windows keeps, after one more call. -/
def Label.makes (maker : Option Nat) : Label → Option Nat
  | .call i ⟨.registerApplicationRestart _ _, result⟩ => if (result : Int32) ≥ 0 then some i else maker
  | .call _ ⟨.unregisterApplicationRestart, result⟩ => if (result : Int32) ≥ 0 then none else maker
  | _ => maker

def maker (history : List Label) : Option Nat := history.foldl Label.makes none

/-- The options of `i` that a call of `register` or `update` put in force. -/
def Label.kept? (i : Nat) : Label → Option ApplicationRestartOptions
  | .returned j options (.ok ()) => if j = i then some options else none
  | _ => none

/-- The current options of `i`: a call that failed changes nothing. -/
def kept (i : Nat) (history : List Label) : Option ApplicationRestartOptions :=
  (history.filterMap (Label.kept? i)).getLast?

end ApplicationRestart
end RestartManager
