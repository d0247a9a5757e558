import RestartManager.Session.Typestates

/-! Which native calls each method can make, whatever the environment answers.
A proof that needs no more than that about a method takes it from here. -/
namespace RestartManager

open Interaction Contract

variable [Platform]

/-! ### Kinds of calls -/

def Call.Registers : Call → Prop
  | .rmRegisterResources .. | .pathAbsolute _ | .pathIsDir _ => True
  | _ => False

def Call.Reports : Call → Prop
  | .rmGetList .. | .tryReserveExact .. => True
  | _ => False

def Call.ChangesFilter : Call → Prop
  | .rmAddFilter .. | .rmRemoveFilter .. => True
  | _ => False

def Call.ListsFilters : Call → Prop
  | .rmGetFilterList .. | .tryReserveExact .. | .readUnaligned .. => True
  | _ => False

/-- Calls that reach the caller's closure or the callback slot, never Windows. -/
def Call.CallsBack : Call → Prop
  | .installLease | .releaseLease | .invokeCallback _ | .sendReplace _ => True
  | _ => False

/-- Calls that shut down, restart or end the session, with their callbacks. -/
def Call.MovesOn : Call → Prop
  | .rmShutdown .. | .rmRestart .. | .rmEndSession _ => True
  | c => c.CallsBack

section Rules

variable {P : Call → Prop} {ε α : Type}

theorem makes_sysCall {c : Call} (h : P c) : Makes P (sysCall c : ExceptT ε Native c.Response).run :=
  ⟨h, fun _ _ => trivial⟩

/-- A result that is there makes no call. -/
theorem makes_ofResult (result : Except ε α) : Makes P (ofResult result : ExceptT ε Native α).run :=
  makes_done result

/-- The mapping of errors makes no call. -/
theorem makes_mapErr {result : SysM α} (h : Makes P result.run) (f : SysError → Error) :
    Makes P (mapErr result f).run :=
  (wp_mapErr (only P) result f _ _).mpr h

end Rules

/-! ### Registration -/

/-- A path is resolved by one call of the standard library. -/
theorem absoluteUserPath_makes (path : PathBuf) (description : String) :
    Makes Call.Registers (absoluteUserPath path description).run := by
  refine (makes_ofResult _).run_bind fun _ => (makes_sysCall trivial).run_bind fun response => ?_
  cases response with
  | ok path => exact makes_done _
  | error code => exact makes_done _

/-- A file is made absolute and looked up, before any native call. -/
theorem validateAndAbsoluteFile_makes (path : PathBuf) :
    Makes Call.Registers (validateAndAbsoluteFile path).run := by
  refine (absoluteUserPath_makes _ _).run_bind fun _ => (makes_sysCall trivial).run_bind fun isDir => ?_
  cases isDir with
  | true => exact makes_done _
  | false => exact makes_done _

/-- One native registration, if the lists can be counted. -/
theorem SessionHandle.registerResources_makes (handle : SessionHandle) (files : List PathBuf)
    (processes : List RawUniqueProcess) (services : List OsString) :
    Makes Call.Registers (handle.registerResources files processes services).run :=
  (makes_ofResult _).run_bind fun _ => (makes_ofResult _).run_bind fun _ =>
    (makes_ofResult _).run_bind fun _ => (makes_sysCall trivial).run_bind fun _ => makes_ofResult _

/-- The paths come first, and then the registration. -/
theorem SessionCore.registerResources_makes (core : SessionCore) (resources : ResourceBatch) :
    Makes Call.Registers (core.registerResources resources).run := by
  unfold SessionCore.registerResources
  split
  · exact makes_done _
  · refine (Makes.run_mapM validateAndAbsoluteFile_makes).run_bind fun files => ?_
    have hService (name : OsString) : Makes Call.Registers (do
        ofResult (validateUserOsValue name "a service short name")
        return name : CrateM OsString).run :=
      (makes_ofResult _).run_bind fun _ => makes_done _
    exact (Makes.run_mapM hService).run_bind fun services =>
      makes_mapErr (core.handle.registerResources_makes _ _ _) _

/-! ### Reports -/

theorem usizeTryFrom_makes {P : Call → Prop} (value : UInt32) : Makes P (usizeTryFrom value).run := by
  rw [usizeTryFrom_eq]
  exact makes_done _

/-- By induction on the attempts left. -/
theorem fetchApplications_makes (raw : UInt32) (attempts : Nat) (needed : UInt32) :
    Makes Call.Reports (fetchApplications raw attempts needed).run := by
  induction attempts generalizing needed with
  | zero => exact makes_done _
  | succ attempts ih =>
      refine (usizeTryFrom_makes _).run_bind fun capacity => ?_
      refine (makes_sysCall trivial).run_bind fun allocation => ?_
      cases allocation with
      | none => exact makes_done _
      | some allocation =>
          refine (makes_sysCall trivial).run_bind fun reply => ?_
          split
          · exact ih _
          · refine (makes_ofResult _).run_bind fun _ => (usizeTryFrom_makes _).run_bind fun _ => ?_
            dsimp only
            split
            · exact makes_done _
            · exact (makes_ofResult _).run_bind fun _ => makes_done _

/-- Only lists are asked for, and room for them. -/
theorem affectedApplications_makes (raw : UInt32) :
    Makes Call.Reports (affectedApplications raw).run := by
  refine (makes_sysCall trivial).run_bind fun first => ?_
  split
  · exact makes_done _
  · split
    · exact makes_done _
    · exact fetchApplications_makes _ _ _

theorem SessionCore.affectedApplications_makes (core : SessionCore) :
    Makes Call.Reports core.affectedApplications.run :=
  (makes_mapErr (RestartManager.affectedApplications_makes _) _).run_bind fun _ => makes_done _

/-! ### Filters -/

/-- One call, if the action is known. -/
theorem SessionHandle.addFilter_makes (handle : SessionHandle) (target : RawFilterTarget)
    (action : Int32) : Makes Call.ChangesFilter (handle.addFilter target action).run := by
  unfold SessionHandle.addFilter
  split
  · exact makes_done _
  · exact (makes_sysCall trivial).run_bind fun _ => makes_ofResult _

theorem SessionHandle.removeFilter_makes (handle : SessionHandle) (target : RawFilterTarget) :
    Makes Call.ChangesFilter (handle.removeFilter target).run :=
  (makes_sysCall trivial).run_bind fun _ => makes_ofResult _

/-- The parser reads its buffer and calls nothing. -/
theorem parseFilterBuffer_makes (buffer : AlignedBuffer) (byteLen : Nat) :
    Makes Call.ListsFilters (parseFilterBuffer buffer byteLen).run := by
  by_cases hLen : byteLen ≤ buffer.byteCapacity
  · have hParse : (bufferContract buffer byteLen True).wp (parseFilterBuffer buffer byteLen).run _ _ :=
      wp_parseFilterBuffer hLen
    refine makes_of_wp _ hParse bufferContract_rely ?_
    intro _ c h
    cases c <;> trivial
  · unfold parseFilterBuffer
    split
    · exact makes_done _
    · rw [if_pos (by omega)]
      exact makes_done _

/-- A buffer is reserved. -/
theorem AlignedBuffer.new_makes (byteLen : UInt32) :
    Makes Call.ListsFilters (AlignedBuffer.new byteLen).run := by
  refine (usizeTryFrom_makes _).run_bind fun length => ?_
  dsimp only
  split
  · exact makes_done _
  · refine (makes_sysCall trivial).run_bind fun response => ?_
    cases response with
    | none => exact makes_done _
    | some allocation => exact makes_done _

/-- By induction on the attempts left. -/
theorem fetchFilters_makes (raw : UInt32) (attempts : Nat) (needed : UInt32) :
    Makes Call.ListsFilters (fetchFilters raw attempts needed).run := by
  induction attempts generalizing needed with
  | zero => exact makes_done _
  | succ attempts ih =>
      unfold fetchFilters
      split
      · exact makes_done _
      · refine (AlignedBuffer.new_makes _).run_bind fun buffer => ?_
        refine (makes_sysCall trivial).run_bind fun reply => ?_
        dsimp only
        split
        · exact ih _
        · refine (makes_ofResult _).run_bind fun _ => ?_
          by_cases hValid : (if reply.needed = 0 then needed else reply.needed) > needed
          · rw [if_pos hValid]
            exact makes_done _
          · rw [if_neg hValid]
            exact parseFilterBuffer_makes _ _

/-- Only filters are asked for, and room for them. -/
theorem getFilters_makes (raw : UInt32) : Makes Call.ListsFilters (getFilters raw).run := by
  refine (makes_sysCall trivial).run_bind fun first => ?_
  split
  · exact makes_done _
  · split
    · exact makes_done _
    · exact fetchFilters_makes _ _ _

namespace RestartSession

/-- The target selects the arguments, not the call. -/
theorem setFilter_makes (session : RestartSession) (target : FilterTarget) (action : FilterAction) :
    Makes Call.ChangesFilter (session.setFilter target action).run :=
  (makes_done (rawFilterTarget target)).run_bind fun _ =>
    (makes_mapErr (session.core.handle.addFilter_makes _ _) _).run_lift

theorem removeFilter_makes (session : RestartSession) (target : FilterTarget) :
    Makes Call.ChangesFilter (session.removeFilter target).run :=
  (makes_done (rawFilterTarget target)).run_bind fun _ =>
    (makes_mapErr (session.core.handle.removeFilter_makes _) _).run_lift

theorem filters_makes (session : RestartSession) : Makes Call.ListsFilters session.filters.run :=
  (makes_mapErr (getFilters_makes _) _).run_bind fun _ => makes_ofResult _

end RestartSession

/-! ### Callbacks -/

theorem Callback.call_makes (callback : Callback) (progress : Progress) :
    Makes Call.CallsBack (callback.call progress) := by
  cases callback with
  | user => exact makes_request trivial
  | watch => exact (makes_request trivial).bind fun _ => makes_done _

/-- The closure calls the caller of the crate. -/
theorem deliverProgress_makes (callback : Callback) (native : UInt32) (state : Delivery) :
    Makes Call.CallsBack (deliverProgress callback native state) := by
  unfold deliverProgress
  split
  · exact makes_done _
  · split
    · exact makes_done _
    · split
      · exact makes_done _
      · exact (callback.call_makes _).bind fun _ => makes_done _

/-- A report may skip the closure, and calls nothing else. -/
theorem callCallback_makes (callback : Callback) (state : CallbackState Delivery) (percent : UInt32) :
    Makes Call.CallsBack (callCallback (deliverProgress callback) state percent) := by
  unfold callCallback
  split
  · exact makes_done _
  · exact (deliverProgress_makes _ _ _).bind fun _ => makes_done _

/-- The sender of a watch channel does not panic. -/
theorem callCallback_returns (callback : Callback) (state : CallbackState Delivery) (percent : UInt32)
    (h : state.panic ≠ none → callback = .user) :
    Returns (fun state => state.panic ≠ none → callback = .user)
      (callCallback (deliverProgress callback) state percent) := by
  cases callback with
  | user => exact (returns_any _).mono fun _ _ _ => rfl
  | watch =>
      unfold callCallback
      split
      · exact h
      · have hDelivered : Returns (fun result => result.1 = none)
            (deliverProgress .watch percent state.captured) := by
          unfold deliverProgress
          split
          · rfl
          · split
            · rfl
            · split
              · rfl
              · exact ⟨trivial, fun _ _ => rfl⟩
        exact hDelivered.bind fun result hResult hPanic => absurd hResult hPanic

/-- An operation with a callback is its native call, up to calls that a
contract ignores: a refusal makes no native call, and otherwise the result is
the native code or the payload of a panic of the caller's own closure. -/
theorem wp_runWithCallback {State : Type} {C : Contract Call.Response State} {callback : Callback}
    {captured : Delivery} {operation : Bool → Native OperationReply}
    {Q : Except Payload (SysResult Unit) × Delivery → State → Prop} {s : State}
    (hIgnored : ∀ s, C.Ignores s Call.CallsBack)
    (hRefused : Q (.ok (.error .callbackInUse), captured) s)
    (hOperation : C.wp (operation true) (fun reply s' => ∀ captured',
      (∀ payload, callback = .user → Q (.error payload, captured') s') ∧
        Q (.ok (check reply.code), captured') s') s) :
    C.wp (runWithCallback (deliverProgress callback) captured operation) Q s := by
  unfold runWithCallback
  obtain ⟨hInstall, hInstalled⟩ := hIgnored s Call.installLease trivial
  refine ⟨hInstall, fun installed hr => ?_⟩
  rw [hInstalled installed hr]
  cases installed with
  | false => exact hRefused
  | true =>
      change C.wp (operation true >>= _) _ _
      refine (C.wp_bind _ _ _ _).mpr (C.wp_mono hOperation fun reply s' hReply => ?_)
      have hReports : Makes Call.CallsBack (reply.reports.foldlM (callCallback (deliverProgress callback))
          { captured, panic := none }) := Makes.foldlM fun _ _ => callCallback_makes callback _ _
      have hPanics : Returns (fun state => state.panic ≠ none → callback = .user)
          (reply.reports.foldlM (callCallback (deliverProgress callback))
            { captured, panic := none }) :=
        Returns.foldlM nofun fun state percent => callCallback_returns callback state percent
      refine (C.wp_bind _ _ _ _).mpr (C.wp_mono
        (C.wp_and_returns (C.wp_of_makes hReports (hIgnored s')) hPanics) ?_)
      rintro state _ ⟨rfl, hUser⟩
      obtain ⟨hRelease, hReleased⟩ := hIgnored _ Call.releaseLease trivial
      refine ⟨hRelease, fun response hr => ?_⟩
      rw [hReleased response hr]
      obtain ⟨hPanic, hReturn⟩ := hReply state.captured
      cases hState : state.panic with
      | some payload => exact hPanic payload (hUser (by simp [hState]))
      | none => exact hReturn

/-! ### Moving on -/

/-- An operation with a callback makes its native call and reaches the slot. -/
theorem runWithCallback_makes {P : Call → Prop} {callback : Callback} {captured : Delivery}
    {operation : Bool → Native OperationReply} (hCalls : ∀ c, Call.CallsBack c → P c)
    (hOperation : Makes P (operation true)) :
    Makes P (runWithCallback (deliverProgress callback) captured operation) := by
  refine (makes_request (hCalls .installLease trivial)).bind fun installed => ?_
  cases installed with
  | false => exact makes_done _
  | true =>
      refine hOperation.bind fun reply => ?_
      have hReport (state : CallbackState Delivery) (percent : UInt32) :
          Makes P (callCallback (deliverProgress callback) state percent) :=
        (callCallback_makes callback state percent).mono hCalls
      refine (Makes.foldlM hReport).bind fun state => ?_
      refine (makes_request (hCalls .releaseLease trivial)).bind fun _ => ?_
      cases state.panic with
      | some payload => exact makes_done _
      | none => exact makes_done _

theorem makes_handle_drop (handle : SessionHandle) :
    Makes (· = .rmEndSession handle.raw) handle.drop := by
  unfold SessionHandle.drop
  split
  · have hRequest : Makes (· = Call.rmEndSession handle.raw)
        (Program.request (Call.rmEndSession handle.raw) : Native UInt32) := ⟨rfl, fun _ _ => trivial⟩
    exact hRequest.bind fun _ => makes_done ()
  · exact makes_done ()

/-- The end of a core makes no other call than the end. -/
theorem makes_core_end (core : SessionCore) : Makes (· = .rmEndSession core.handle.raw) core.end := by
  have hEnd : (only (· = .rmEndSession core.handle.raw)).wp core.handle.end
      (fun result _ => result.2.raw = core.handle.raw) () := by
    unfold SessionHandle.end
    split
    · exact rfl
    · exact ⟨rfl, fun code _ => rfl⟩
  refine ((only _).wp_bind _ _ _ _).mpr ((only _).wp_mono hEnd ?_)
  rintro ⟨result, handle⟩ _ hRaw
  have hDrop := makes_handle_drop handle
  dsimp only at hRaw
  rw [hRaw] at hDrop
  exact hDrop.bind fun _ => makes_done _


omit [Platform] in
/-- A report is part of a method that takes its value. -/
theorem Call.CallsBack.movesOn {c : Call} (h : c.CallsBack) : c.MovesOn := by
  cases c <;> first | exact h.elim | trivial

/-- A drop ends the session. -/
theorem SessionCore.drop_makes (core : SessionCore) : Makes Call.MovesOn core.drop := by
  apply (makes_handle_drop core.handle).mono
  intro c hEnd
  rw [hEnd]
  trivial

/-- The end of a session and the drop after it make no other calls than those that move on. -/
theorem SessionCore.end_makes (core : SessionCore) : Makes Call.MovesOn core.end := by
  apply (makes_core_end core).mono
  intro c hEnd
  rw [hEnd]
  trivial

/-- A shutdown is one call. -/
theorem SessionHandle.shutdown_makes (handle : SessionHandle) (flags : UInt32) :
    Makes Call.MovesOn (handle.shutdown flags).run :=
  (makes_sysCall trivial).run_bind fun _ => makes_ofResult _

theorem SessionHandle.restart_makes (handle : SessionHandle) :
    Makes Call.MovesOn handle.restart.run :=
  (makes_sysCall trivial).run_bind fun _ => makes_ofResult _

namespace RestartPending

theorem drop_makes (pending : RestartPending) : Makes Call.MovesOn pending.drop := by
  unfold drop
  cases pending.core with
  | some core => exact (core.handle.restart_makes).bind fun _ => core.drop_makes
  | none => exact makes_done _

/-- A method that unwinds drops the pending value on its way. -/
theorem unwinding_makes {α : Type} (pending : RestartPending) (result : Except Payload α) :
    Makes Call.MovesOn (pending.unwinding result).run := by
  cases result with
  | ok value => exact makes_done _
  | error payload => exact pending.drop_makes.run_lift.run_bind fun _ => makes_done _

/-- The end of every method that completes a recovery. -/
theorem completing_makes (pending : RestartPending) (restart : Option OperationOutcome) :
    Makes Call.MovesOn (do
      let (shutdown, pending) ← pending.unwinding pending.takeShutdown
      let outcome : RecoveryOutcome := { shutdown, restart }
      let (core, pending) ← pending.unwinding pending.takeCore
      ExceptT.lift pending.drop
      return { core, outcome } : UnwindM RecoveryCompletion).run :=
  (pending.unwinding_makes _).run_bind fun first => (first.2.unwinding_makes _).run_bind fun second =>
    second.2.drop_makes.run_lift.run_bind fun _ => makes_done _

theorem restart_makes (pending : RestartPending) : Makes Call.MovesOn pending.restart.run :=
  (pending.unwinding_makes _).run_bind fun core =>
    (makes_mapErr core.handle.restart_makes _).run_lift.run_bind fun _ => pending.completing_makes _

theorem leaveStopped_makes (pending : RestartPending) : Makes Call.MovesOn pending.leaveStopped.run :=
  pending.completing_makes none

/-- The lease, the reports and the one restart, and what the drop makes of a
panic. -/
theorem restartWithProgress_makes (pending : RestartPending) (callback : Callback) :
    Makes Call.MovesOn (pending.restartWithProgress callback).run := by
  have hNative (core : SessionCore) : Makes Call.MovesOn
      (core.handle.restartWithProgress (deliverProgress callback) ⟨none, false⟩) :=
    runWithCallback_makes (fun _ => Call.CallsBack.movesOn) (makes_request trivial)
  refine (pending.unwinding_makes _).run_bind fun core => (hNative core).run_lift.run_bind fun called => ?_
  refine (pending.unwinding_makes _).run_bind fun result => ?_
  cases result with
  | error error =>
      dsimp only
      split
      · exact makes_done _
      · exact (pending.completing_makes _).run_bind fun _ => makes_done _
  | ok value => exact (pending.completing_makes _).run_bind fun _ => makes_done _

end RestartPending

namespace RestartSession

/-- The one shutdown, and the drop of the pending value if it unwinds. -/
theorem shutdownWithOptions_makes (session : RestartSession) (options : ShutdownOptions) :
    Makes Call.MovesOn (session.shutdownWithOptions options).run :=
  (RestartPending.unwinding_makes _ _).run_bind fun core =>
    (makes_mapErr (core.handle.shutdown_makes _) _).run_lift.run_bind fun _ => makes_done _

/-- The lease, the reports and the one shutdown, and what the drop makes of a
panic. -/
theorem shutdownWithProgress_makes (session : RestartSession) (options : ShutdownOptions)
    (callback : Callback) : Makes Call.MovesOn (session.shutdownWithProgress options callback).run := by
  have hNative (core : SessionCore) : Makes Call.MovesOn (core.handle.shutdownWithProgress
      options.nativeFlags (deliverProgress callback) ⟨none, false⟩) :=
    runWithCallback_makes (fun _ => Call.CallsBack.movesOn) (makes_request trivial)
  refine (RestartPending.unwinding_makes _ _).run_bind fun core =>
    (hNative core).run_lift.run_bind fun called => ?_
  refine (RestartPending.unwinding_makes _ _).run_bind fun result => ?_
  cases result with
  | error error =>
      dsimp only
      split
      · exact (RestartPending.unwinding_makes _ _).run_bind fun taken =>
          taken.2.drop_makes.run_lift.run_bind fun _ => makes_done _
      · exact makes_done _
  | ok value => exact makes_done _

end RestartSession
end RestartManager
