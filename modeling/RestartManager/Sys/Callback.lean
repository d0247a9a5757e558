import RestartManager.Sys.Native

/-! A native operation that reports progress to a closure. No panic crosses
the native frames: it is kept until the operation has returned, and raised on
the thread that started the operation. -/
namespace RestartManager

open Interaction

/-- The closure's captured variables, and the panic of an earlier report. -/
structure CallbackState (σ : Type) where
  captured : σ
  panic : Option Payload

variable [Platform] {σ : Type}

/-- A closure that is called with a report. Its captured variables keep what
it wrote to them before it returned or panicked. -/
abbrev Closure (σ : Type) := UInt32 → σ → Native (Option Payload × σ)

def callCallback (callback : Closure σ) (state : CallbackState σ) (percent : UInt32) :
    Native (CallbackState σ) :=
  if state.panic.isSome then return state
  else do
    let (panic, captured) ← callback percent state.captured
    return { captured, panic }

/-- The function that Windows calls, with the state that the slot points to.
Whatever unwinds inside is caught here. -/
def callbackTrampoline (callback : Closure σ) (slot : Option (CallbackState σ)) (percent : UInt32) :
    UnwindM (Option (CallbackState σ)) := do
  let caught : Except Payload (Option (CallbackState σ)) ← ExceptT.lift (ExceptT.run do
    match slot with
    | some state => return some (← ExceptT.lift (callCallback callback state percent))
    | none => return none)
  match caught with
  | .ok slot => return slot
  | .error _ => return slot

/-- A program that ends as the trampoline does. -/
def trampolined (p : Native (CallbackState σ)) : Native (Except Payload (Option (CallbackState σ))) :=
  p >>= fun state => .done (.ok (some state))

/-- Inside the trampoline runs the callback, and nothing unwinds out of it. -/
theorem callbackTrampoline_run (callback : Closure σ) (state : CallbackState σ) (percent : UInt32) :
    (callbackTrampoline callback (some state) percent).run =
      trampolined (callCallback callback state percent) := by
  unfold callbackTrampoline trampolined
  rw [run_lift_bind]
  simp only [run_lift_bind, bind_assoc]
  rfl

theorem trampolined_eq_done {p : Native (CallbackState σ)}
    {result : Except Payload (Option (CallbackState σ))} (h : trampolined p = .done result) :
    ∃ final, p = .done final ∧ result = .ok (some final) := by
  cases p with
  | done final =>
      cases h
      exact ⟨final, rfl, rfl⟩
  | call c next => cases h

theorem trampolined_eq_call {p : Native (CallbackState σ)} {c : Call}
    {next : c.Response → Native (Except Payload (Option (CallbackState σ)))}
    (h : trampolined p = .call c next) :
    ∃ next', p = .call c next' ∧ ∀ response, next response = trampolined (next' response) := by
  cases p with
  | done final => cases h
  | call c' next' =>
      cases h
      exact ⟨next', rfl, fun _ => rfl⟩

theorem trampolined_injective : Function.Injective (@trampolined _ σ) := by
  intro p
  induction p with
  | done final =>
      intro q h
      obtain ⟨final', rfl, hFinal⟩ := trampolined_eq_done h.symm
      cases hFinal
      rfl
  | call c next ih =>
      intro q h
      obtain ⟨next', rfl, hNext⟩ := trampolined_eq_call h.symm
      exact congrArg _ (funext fun response => ih response (hNext response))

/-- The result is the payload that is resumed, or what the operation returned.
The reports of the native call reach the closure while the lease is held. -/
def runWithCallback (callback : Closure σ) (captured : σ)
    (operation : Bool → Native OperationReply) : Native (Except Payload (SysResult Unit) × σ) := do
  let state : CallbackState σ := { captured, panic := none }
  let installed ← Program.request Call.installLease
  if !installed then return (.ok (.error .callbackInUse), captured)
  else do
    let reply ← operation true
    let state ← reply.reports.foldlM (callCallback callback) state
    Program.request Call.releaseLease
    match state.panic with
    | some payload => return (.error payload, state.captured)
    | none => return (.ok (check reply.code), state.captured)

end RestartManager
