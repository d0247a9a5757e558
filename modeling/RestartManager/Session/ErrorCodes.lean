import RestartManager.Session.InSequence
import RestartManager.Session.Operations
import RestartManager.Session.Performed
import RestartManager.Session.SessionKeys
import RestartManager.Sys.FilterSafety

/-! Where the Win32 code of an error comes from. An error that carries a code
is what the crate makes of a call of its own operation that returned this code,
and an operation that succeeds had no call that failed. -/
namespace RestartManager

open Interaction Contract Program

/-- The operation that a native call is made for. -/
def Call.operation? : Call → Option Operation
  | .rmRegisterResources .. => some .register
  | .rmGetList .. => some .report
  | .rmShutdown .. => some .shutdown
  | .rmRestart .. => some .restart
  | .rmAddFilter .. => some .setFilter
  | .rmRemoveFilter .. => some .removeFilter
  | .rmGetFilterList .. => some .filters
  | .rmEndSession _ => some .end
  | _ => none

variable [Platform]

/-- The code that a call returned. -/
def code? : Event → Option UInt32
  | ⟨.rmStartSession, reply⟩ => some (reply : StartReply).code
  | ⟨.rmJoinSession _, reply⟩ => some (reply : JoinReply).code
  | ⟨.rmRegisterResources .., code⟩ => some code
  | ⟨.rmGetList .., reply⟩ => some (reply : GetListReply).code
  | ⟨.rmAddFilter .., code⟩ => some code
  | ⟨.rmRemoveFilter .., code⟩ => some code
  | ⟨.rmGetFilterList .., reply⟩ => some (reply : GetFilterListReply).code
  | ⟨.rmShutdown .., reply⟩ => some (reply : OperationReply).code
  | ⟨.rmRestart .., reply⟩ => some (reply : OperationReply).code
  | ⟨.rmCancelCurrentTask _, code⟩ => some code
  | ⟨.rmEndSession _, code⟩ => some code
  | ⟨.pathAbsolute _, .error code⟩ => code
  | _ => none

/-- A list that did not fit is asked for again. -/
def Asks (event : Event) : Prop :=
  code? event = some ERROR_MORE_DATA ∧
    (event.1.operation? = some .report ∨ event.1.operation? = some .filters)

/-- No call failed. -/
def Clean (trace : Trace) : Prop :=
  ∀ event ∈ trace, ∀ code, code? event = some code → code = ERROR_SUCCESS ∨ Asks event

/-- The error is what the crate makes of this call and its code. -/
inductive Explains : Event → Error → Prop
  | start {reply : StartReply} (failed : reply.code ≠ ERROR_SUCCESS) :
      Explains ⟨.rmStartSession, reply⟩ (mapSysError (.os reply.code))
  | join {key : WideString} {reply : JoinReply} (failed : reply.code ≠ ERROR_SUCCESS) :
      Explains ⟨.rmJoinSession key, reply⟩ (mapJoinError (.os reply.code))
  | path {file : PathBuf} {code : Option UInt32} {error : Error} (kind : error.kind = .invalidInput)
      (raw : error.rawOsError = code) : Explains ⟨.pathAbsolute file, .error code⟩ error
  | operation {event : Event} {operation : Operation} {code : UInt32}
      (of : event.1.operation? = some operation) (answered : code? event = some code)
      (failed : code ≠ ERROR_SUCCESS) : Explains event (mapOperationError (.os code) operation)
  /-- The list kept changing. -/
  | changed {event : Event} {operation : Operation} (of : event.1.operation? = some operation)
      (asks : Asks event) :
      Explains event (mapOperationError (.dataChanged ERROR_MORE_DATA) operation)

/-- An error without a code is made by the crate alone. -/
def Blamed (trace : Trace) (error : Error) : Prop :=
  error.rawOsError = none ∨ ∃ event ∈ trace, Explains event error

/-- The same of the errors of the adapter in an operation. -/
inductive SysBlamed (operation : Operation) (trace : Trace) : SysError → Prop
  | os {code : UInt32} {event : Event} (mem : event ∈ trace) (of : event.1.operation? = some operation)
      (answered : code? event = some code) (failed : code ≠ ERROR_SUCCESS) : SysBlamed operation trace (.os code)
  | changed {event : Event} (mem : event ∈ trace) (of : event.1.operation? = some operation)
      (asks : Asks event) : SysBlamed operation trace (.dataChanged ERROR_MORE_DATA)
  | own {error : SysError} (os : ∀ code, error ≠ .os code) (changed : ∀ code, error ≠ .dataChanged code) :
      SysBlamed operation trace error

section

variable {trace first later : Trace} {error : Error} {operation : Operation}

/-- A longer trace still has the call that an error blames. -/
theorem Blamed.mono (h : Blamed trace error) (hSub : trace ⊆ later) : Blamed later error := by
  rcases h with hNone | ⟨event, hMem, hExplains⟩
  · exact .inl hNone
  · exact .inr ⟨event, hSub hMem, hExplains⟩

theorem SysBlamed.mono {error : SysError} (h : SysBlamed operation trace error) (hSub : trace ⊆ later) :
    SysBlamed operation later error := by
  cases h with
  | os mem of answered failed => exact .os (hSub mem) of answered failed
  | changed mem of asks => exact .changed (hSub mem) of asks
  | own os changed => exact .own os changed

omit [Platform] in
/-- An error that the crate makes itself has no native code. -/
theorem mapSysError_own {error : SysError} (hOs : ∀ code, error ≠ .os code)
    (hChanged : ∀ code, error ≠ .dataChanged code) : (mapSysError error).rawOsError = none := by
  cases error with
  | os code => exact absurd rfl (hOs code)
  | dataChanged code => exact absurd rfl (hChanged code)
  | _ => rfl

omit [Platform] in
/-- An error without a native code gets none by naming its operation. -/
theorem mapOperationError_own {error : SysError} (hOs : ∀ code, error ≠ .os code)
    (hChanged : ∀ code, error ≠ .dataChanged code) :
    (mapOperationError error operation).rawOsError = none := by
  unfold mapOperationError
  split
  case h_8 => exact mapSysError_own hOs hChanged
  all_goals exact absurd rfl (hOs _)

/-- The mapping to the public error keeps the code and names the operation. -/
theorem SysBlamed.blamed {error : SysError} (h : SysBlamed operation trace error) :
    Blamed trace (mapOperationError error operation) := by
  cases h with
  | os mem of answered failed => exact .inr ⟨_, mem, .operation of answered failed⟩
  | changed mem of asks => exact .inr ⟨_, mem, .changed of asks⟩
  | own os changed => exact .inl (mapOperationError_own os changed)

theorem Clean.append (h : Clean first) (h' : Clean later) : Clean (first ++ later) := by
  intro event hMem
  exact (List.mem_append.mp hMem).elim (h event) (h' event)

theorem clean_nil : Clean [] := nofun

theorem clean_singleton {event : Event} (h : ∀ code, code? event = some code → code = ERROR_SUCCESS ∨
    Asks event) : Clean [event] := by
  intro event' hMem
  obtain rfl := List.mem_singleton.mp hMem
  exact h

end

/-! ### Methods -/

section

variable {ε α β : Type} {B : Trace → ε → Prop}

/-- No call failed, or the error is blamed on one. -/
def Accounted (B : Trace → ε → Prop) (trace : Trace) : Except ε α → Prop
  | .ok _ => Clean trace
  | .error error => B trace error

def Accounts (B : Trace → ε → Prop) (p : ExceptT ε Native α) : Prop :=
  ∀ trace result, p.run.Exec trace result → Accounted B trace result

/-- What is blamed on a run is blamed on a longer one. -/
def Extends (B : Trace → ε → Prop) : Prop := ∀ first trace error, B trace error → B (first ++ trace) error

/-- Calls made before do not clear an error. -/
theorem extends_blamed : Extends Blamed := fun _ _ _ h => h.mono (List.subset_append_right _ _)

theorem extends_sysBlamed (operation : Operation) : Extends (SysBlamed operation) :=
  fun _ _ _ h => h.mono (List.subset_append_right _ _)

/-- A result that is accounted for stays so after calls that succeeded. -/
theorem Accounted.after {first trace : Trace} {result : Except ε α} (hB : Extends B) (hFirst : Clean first)
    (h : Accounted B trace result) : Accounted B (first ++ trace) result := by
  cases result with
  | ok value => exact hFirst.append h
  | error error => exact hB first trace error h

/-- What comes before a failure was answered without one. -/
theorem Accounts.bind {p : ExceptT ε Native α} {f : α → ExceptT ε Native β} (hB : Extends B)
    (hp : Accounts B p) (hf : ∀ value, Accounts B (f value)) : Accounts B (p >>= f) := by
  intro trace result run
  rcases exec_run_bind_iff.mp run with ⟨error, head, rfl⟩ | ⟨first, second, value, rfl, head, rest⟩
  · exact hp _ _ head
  · exact (hf value _ _ rest).after hB (hp _ _ head)

theorem accounts_pure (value : α) : Accounts B (pure value : ExceptT ε Native α) := by
  intro trace result run
  obtain ⟨rfl, rfl⟩ := exec_done_iff.mp run
  exact clean_nil

/-- An error that blames no call may be raised anywhere. -/
theorem accounts_throw {error : ε} (h : B [] error) : Accounts B (throw error : ExceptT ε Native α) := by
  intro trace result run
  obtain ⟨rfl, rfl⟩ := exec_done_iff.mp run
  exact h

theorem accounts_ofResult {result : Except ε α} (h : ∀ error, result = .error error → B [] error) :
    Accounts B (ofResult result : ExceptT ε Native α) := by
  cases result with
  | ok value => exact accounts_pure value
  | error error => exact accounts_throw (h error rfl)

/-- A single call whose code the method does not look at. -/
theorem accounts_sysCall {c : Call} (h : ∀ response, Clean [⟨c, response⟩]) :
    Accounts B (sysCall c : ExceptT ε Native c.Response) := by
  intro trace result run
  obtain ⟨response, hRun, rfl⟩ := exec_run_lift_iff.mp run
  obtain rfl := exec_request_iff.mp hRun
  exact h response

/-- A call and what the method makes of its response. -/
theorem accounts_call {c : Call} {next : c.Response → ExceptT ε Native β}
    (h : ∀ response trace result, (next response).run.Exec trace result →
      Accounted B (⟨c, response⟩ :: trace) result) : Accounts B (sysCall c >>= next) := by
  intro trace result run
  obtain ⟨response, rest, rfl, hNext⟩ := exec_sysCall_bind_iff.mp run
  exact h response rest result hNext

/-- Any number of items, one after the other. -/
theorem Accounts.mapM {ι : Type} {f : ι → ExceptT ε Native α} {items : List ι} (hB : Extends B)
    (h : ∀ i, Accounts B (f i)) : Accounts B (items.mapM f) := by
  induction items with
  | nil => exact accounts_pure _
  | cons i rest ih =>
      rw [List.mapM_cons]
      exact (h i).bind hB fun _ => ih.bind hB fun _ => accounts_pure _

/-- The public error blames what the native error did. -/
theorem accounts_mapErr {operation : Operation} {method : SysM α} (h : Accounts (SysBlamed operation) method) :
    Accounts Blamed (mapErr method (mapOperationError · operation)) := by
  intro trace result run
  obtain ⟨returned, hRun, rfl⟩ := exec_map_iff.mp run
  have hAccounted := h _ _ hRun
  cases returned with
  | ok value => exact hAccounted
  | error error => exact hAccounted.blamed

/-- A call whose code is checked right away. -/
theorem Accounted.checked {operation : Operation} {event : Event} {code : UInt32}
    (hOf : event.1.operation? = some operation) (hCode : code? event = some code)
    {next : ExceptT SysError Native α} {trace : Trace} {result : SysResult α}
    (hNext : Accounts (SysBlamed operation) next)
    (run : (ofResult (check code) >>= fun _ => next).run.Exec trace result) :
    Accounted (SysBlamed operation) (event :: trace) result := by
  by_cases hOk : code = ERROR_SUCCESS
  · have hClean : Clean [event] :=
      clean_singleton fun code' h => .inl ((Option.some.inj (h.symm.trans hCode)).trans hOk)
    rcases exec_ofResult_bind_iff.mp run with ⟨error, hError, -⟩ | ⟨_, -, hRun⟩
    · rw [check, if_pos hOk] at hError
      cases hError
    · exact (hNext _ _ hRun).after (extends_sysBlamed operation) hClean
  · rcases exec_ofResult_bind_iff.mp run with ⟨error, hError, rfl, rfl⟩ | ⟨_, hValue, -⟩
    · rw [check, if_neg hOk] at hError
      cases hError
      exact SysBlamed.os (List.mem_singleton_self _) hOf hCode hOk
    · rw [check, if_neg hOk] at hValue
      cases hValue

/-- A method that ends with its check. -/
theorem Accounted.check {operation : Operation} {event : Event} {code : UInt32}
    (hOf : event.1.operation? = some operation) (hCode : code? event = some code) {trace : Trace}
    {result : SysResult Unit} (run : (ofResult (check code) : SysM Unit).run.Exec trace result) :
    Accounted (SysBlamed operation) (event :: trace) result := by
  apply Accounted.checked hOf hCode (accounts_pure ())
  rwa [bind_pure]

end

/-! ### The adapter -/

section Adapter

variable {operation : Operation} {α : Type}

/-- The crate gives up without a call. -/
theorem accounts_own {error : SysError} (hOs : ∀ code, error ≠ .os code)
    (hChanged : ∀ code, error ≠ .dataChanged code) :
    Accounts (SysBlamed operation) (throw error : SysM α) := accounts_throw (.own hOs hChanged)

/-- A list too long to count is refused before any call. -/
theorem accounts_count (length : Nat) :
    Accounts (SysBlamed operation) (ofResult (count length) : SysM UInt32) := by
  apply accounts_ofResult
  intro error h
  unfold count at h
  split at h <;> cases h
  exact .own nofun nofun

theorem accounts_usizeTryFrom (value : UInt32) : Accounts (SysBlamed operation) (usizeTryFrom value) := by
  rw [usizeTryFrom_eq]
  exact accounts_pure _

/-- A reservation has no code, so its failure has none. -/
theorem accounts_reserve (count size : Nat) :
    Accounts (SysBlamed operation) (sysCall (.tryReserveExact count size)) :=
  accounts_sysCall fun _ => clean_singleton fun _ h => nomatch h

/-- The lists are counted and passed in one call. -/
theorem SessionHandle.registerResources_accounts (handle : SessionHandle) (files : List PathBuf)
    (processes : List RawUniqueProcess) (services : List OsString) :
    Accounts (SysBlamed .register) (handle.registerResources files processes services) := by
  have hExtends := extends_sysBlamed .register
  apply (accounts_count _).bind hExtends
  intro fileCount
  apply (accounts_count _).bind hExtends
  intro processCount
  apply (accounts_count _).bind hExtends
  intro serviceCount
  apply accounts_call
  intro code trace result run
  exact Accounted.check rfl rfl run

/-- The action is validated before the call. -/
theorem SessionHandle.addFilter_accounts (handle : SessionHandle) (target : RawFilterTarget) (action : Int32) :
    Accounts (SysBlamed .setFilter) (handle.addFilter target action) := by
  unfold SessionHandle.addFilter
  split
  · exact accounts_own nofun nofun
  · apply accounts_call
    intro code trace result run
    exact Accounted.check rfl rfl run

theorem SessionHandle.removeFilter_accounts (handle : SessionHandle) (target : RawFilterTarget) :
    Accounts (SysBlamed .removeFilter) (handle.removeFilter target) := by
  apply accounts_call
  intro code trace result run
  exact Accounted.check rfl rfl run

/-- A list that did not fit is asked for again, so its error is that of a call. -/
theorem accounted_asked {event : Event} {trace : Trace} {result : SysResult α}
    (hOf : event.1.operation? = some operation) (hAsks : Asks event)
    (h : Accounted (fun trace error => error = .dataChanged ERROR_MORE_DATA ∨ SysBlamed operation trace error)
      trace result) : Accounted (SysBlamed operation) (event :: trace) result := by
  cases result with
  | ok value => exact (clean_singleton fun _ _ => .inr hAsks).append h
  | error error =>
      rcases h with rfl | h
      · exact .changed List.mem_cons_self hOf hAsks
      · exact h.mono (List.subset_cons_self _ _)

theorem accounted_weaken {trace : Trace} {result : SysResult α}
    (h : Accounted (SysBlamed operation) trace result) :
    Accounted (fun trace error => error = .dataChanged ERROR_MORE_DATA ∨ SysBlamed operation trace error)
      trace result := by
  cases result with
  | ok value => exact h
  | error error => exact .inr h

/-- A name that is not terminated is the fault of no call. -/
theorem decodeFixed_own {buffer : List UInt16} {error : SysError} (h : decodeFixed buffer = .error error) :
    ∀ trace, SysBlamed operation trace error := by
  unfold decodeFixed at h
  split at h <;> cases h
  exact fun trace => .own nofun nofun

/-- Neither is an entry that cannot be decoded. -/
theorem rawApplication_own {entry : RmProcessInfo} {error : SysError}
    (h : rawApplication entry = .error error) : ∀ trace, SysBlamed operation trace error := by
  unfold rawApplication at h
  cases hName : decodeFixed entry.strAppName.toList with
  | error error' =>
      rw [hName] at h
      cases h
      exact decodeFixed_own hName
  | ok name =>
      rw [hName] at h
      cases hService : decodeFixed entry.strServiceShortName.toList with
      | error error' =>
          rw [hService] at h
          cases h
          exact decodeFixed_own hService
      | ok service =>
          rw [hService] at h
          cases h

/-- An attempt accounts for its error, where the attempts after it do. -/
theorem fetchApplications_step {raw : UInt32} {attempts : Nat}
    (h : ∀ needed, Accounts (fun trace error => error = .dataChanged ERROR_MORE_DATA ∨
      SysBlamed .report trace error) (fetchApplications raw attempts needed)) (needed : UInt32) :
    Accounts (SysBlamed .report) (fetchApplications raw (attempts + 1) needed) := by
  have hExtends := extends_sysBlamed .report
  apply (accounts_usizeTryFrom needed).bind hExtends
  intro capacity
  apply (accounts_reserve capacity processInfoSize).bind hExtends
  intro allocation
  cases allocation with
  | none => exact accounts_own nofun nofun
  | some allocation =>
      apply accounts_call
      intro reply trace result run
      by_cases hMore : reply.code = ERROR_MORE_DATA
      · rw [if_pos hMore] at run
        exact accounted_asked rfl ⟨congrArg some hMore, .inl rfl⟩ (h _ _ _ run)
      · rw [if_neg hMore] at run
        refine Accounted.checked rfl rfl ?_ run
        apply (accounts_usizeTryFrom _).bind hExtends
        intro returned
        dsimp only
        split
        · exact accounts_own nofun nofun
        · apply (accounts_ofResult ?_).bind hExtends fun _ => accounts_pure _
          exact fun error hError => error_of_mapM
            (P := fun error => ∀ trace, SysBlamed .report trace error) (fun _ _ => rawApplication_own)
            error hError []

/-- By induction on the attempts left: the call that asks for more is blamed
for the change when there are none. -/
theorem fetchApplications_accounts (raw : UInt32) (attempts : Nat) (needed : UInt32) :
    Accounts (fun trace error => error = .dataChanged ERROR_MORE_DATA ∨ SysBlamed .report trace error)
      (fetchApplications raw attempts needed) := by
  induction attempts generalizing needed with
  | zero => exact accounts_throw (.inl rfl)
  | succ attempts ih =>
      intro trace result run
      exact accounted_weaken (fetchApplications_step ih needed trace result run)

/-- The call for the size, and the attempts after it. -/
theorem affectedApplications_accounts (raw : UInt32) :
    Accounts (SysBlamed .report) (affectedApplications raw) := by
  apply accounts_call
  intro first trace result run
  by_cases hOk : first.code = ERROR_SUCCESS
  · rw [if_pos hOk] at run
    obtain ⟨rfl, rfl⟩ := exec_done_iff.mp run
    exact clean_singleton fun code h => .inl ((Option.some.inj h).symm.trans hOk)
  · rw [if_neg hOk] at run
    by_cases hMore : first.code = ERROR_MORE_DATA
    · rw [if_neg (not_not.mpr hMore)] at run
      exact accounted_asked rfl ⟨congrArg some hMore, .inl rfl⟩ (fetchApplications_accounts _ _ _ _ _ run)
    · rw [if_pos hMore] at run
      obtain ⟨rfl, rfl⟩ := exec_done_iff.mp run
      exact SysBlamed.os (List.mem_singleton_self _) rfl rfl hOk

/-- A parse fails for what is in the buffer, and makes no call with a code. -/
theorem parseFilterBuffer_accounts (buffer : AlignedBuffer) (byteLen : Nat) :
    Accounts (SysBlamed .filters) (parseFilterBuffer buffer byteLen) := by
  by_cases hLen : byteLen ≤ buffer.byteCapacity
  · intro trace result run
    have hParse : (bufferContract buffer byteLen True).wp (parseFilterBuffer buffer byteLen).run _ _ :=
      wp_parseFilterBuffer hLen
    obtain ⟨hRespects, hDecides⟩ := wp_exec _ run hParse (conforms_of_rely _ bufferContract_rely () trace)
    have hMakes : Makes (fun c => ∀ response, code? ⟨c, response⟩ = none)
        (parseFilterBuffer buffer byteLen).run := by
      refine makes_of_wp _ hParse bufferContract_rely ?_
      intro _ c h
      cases c <;> first | exact h.elim | exact fun _ => rfl
    cases hDecides with
    | holds h =>
        intro event hMem code hCode
        cases (hMakes.events run event hMem event.2).symm.trans hCode
    | malformed h => exact .own nofun nofun
    | allocation h => exact .own nofun nofun
  · rw [parseFilterBuffer_exceeds hLen]
    exact accounts_own nofun nofun

/-- A buffer that cannot be allocated is the fault of no call. -/
theorem AlignedBuffer.new_accounts (byteLen : UInt32) :
    Accounts (SysBlamed operation) (AlignedBuffer.new byteLen) := by
  have hExtends := extends_sysBlamed operation
  apply (accounts_usizeTryFrom byteLen).bind hExtends
  intro length
  dsimp only
  split
  · exact accounts_own nofun nofun
  · apply (accounts_reserve _ _).bind hExtends
    intro response
    cases response with
    | none => exact accounts_own nofun nofun
    | some allocation => exact accounts_pure _

theorem fetchFilters_step {raw : UInt32} {attempts : Nat}
    (h : ∀ needed, Accounts (fun trace error => error = .dataChanged ERROR_MORE_DATA ∨
      SysBlamed .filters trace error) (fetchFilters raw attempts needed)) (needed : UInt32) :
    Accounts (SysBlamed .filters) (fetchFilters raw (attempts + 1) needed) := by
  have hExtends := extends_sysBlamed .filters
  unfold fetchFilters
  split
  · exact accounts_pure _
  · apply (AlignedBuffer.new_accounts needed).bind hExtends
    intro buffer
    apply accounts_call
    intro reply trace result run
    dsimp only at run
    by_cases hMore : reply.code = ERROR_MORE_DATA
    · rw [if_pos hMore] at run
      exact accounted_asked rfl ⟨congrArg some hMore, .inr rfl⟩ (h _ _ _ run)
    · rw [if_neg hMore] at run
      refine Accounted.checked rfl rfl ?_ run
      generalize (if reply.needed = 0 then needed else reply.needed) = valid
      split
      · exact accounts_own (by simp) (by simp)
      · exact parseFilterBuffer_accounts _ _

/-- By induction on the attempts left, as for the applications. -/
theorem fetchFilters_accounts (raw : UInt32) (attempts : Nat) (needed : UInt32) :
    Accounts (fun trace error => error = .dataChanged ERROR_MORE_DATA ∨ SysBlamed .filters trace error)
      (fetchFilters raw attempts needed) := by
  induction attempts generalizing needed with
  | zero => exact accounts_throw (.inl rfl)
  | succ attempts ih =>
      intro trace result run
      exact accounted_weaken (fetchFilters_step ih needed trace result run)

/-- The call for the size, and the attempts after it. -/
theorem getFilters_accounts (raw : UInt32) : Accounts (SysBlamed .filters) (getFilters raw) := by
  apply accounts_call
  intro first trace result run
  have hFetch : Accounts (SysBlamed .filters) (fetchFilters raw MAX_LIST_ATTEMPTS first.needed) :=
    fetchFilters_step (fetchFilters_accounts raw 7) first.needed
  by_cases hOk : first.code = ERROR_SUCCESS
  · have hClean : Clean [⟨.rmGetFilterList raw none 0, first⟩] :=
      clean_singleton fun code h => .inl ((Option.some.inj h).symm.trans hOk)
    by_cases hNone : first.needed = 0
    · rw [if_pos ⟨hOk, hNone⟩] at run
      obtain ⟨rfl, rfl⟩ := exec_done_iff.mp run
      exact hClean
    · rw [if_neg (fun h => hNone h.2), if_neg (fun h => h.1 hOk)] at run
      exact (hFetch _ _ run).after (extends_sysBlamed .filters) hClean
  · rw [if_neg (fun h => hOk h.1)] at run
    by_cases hMore : first.code = ERROR_MORE_DATA
    · rw [if_neg (fun h => h.2 hMore)] at run
      exact accounted_asked rfl ⟨congrArg some hMore, .inr rfl⟩ (fetchFilters_accounts _ _ _ _ _ run)
    · rw [if_pos ⟨hOk, hMore⟩] at run
      obtain ⟨rfl, rfl⟩ := exec_done_iff.mp run
      exact SysBlamed.os (List.mem_singleton_self _) rfl rfl hOk

end Adapter

/-! ### The methods of a session -/

section Methods

variable {trace : Trace}

omit [Platform] in
/-- A text with a NUL is refused without a call. -/
theorem validateOsValue_own {value : OsString} {description : String} {kind : ErrorKind} {error : Error}
    (h : validateOsValue value description kind = .error error) : error.rawOsError = none := by
  unfold validateOsValue at h
  split at h
  · cases h
    rfl
  · split at h <;> cases h
    rfl

theorem accounts_validate (value : OsString) (description : String) :
    Accounts Blamed (ofResult (validateUserOsValue value description) : CrateM Unit) :=
  accounts_ofResult fun _ h => .inl (validateOsValue_own h)

/-- A path that cannot be made absolute carries the code of that call. -/
theorem absoluteUserPath_accounts (path : PathBuf) (description : String) :
    Accounts Blamed (absoluteUserPath path description) := by
  apply (accounts_validate path description).bind extends_blamed
  intro _
  apply accounts_call
  intro response trace result run
  cases response with
  | ok absolute =>
      obtain ⟨rfl, rfl⟩ := exec_done_iff.mp run
      have hNone : code? ⟨.pathAbsolute path, .ok absolute⟩ = none := rfl
      apply clean_singleton
      intro code h
      cases hNone.symm.trans h
  | error code =>
      obtain ⟨rfl, rfl⟩ := exec_done_iff.mp run
      exact .inr ⟨_, List.mem_singleton_self _, .path rfl rfl⟩

/-- A directory is refused without a code. -/
theorem validateAndAbsoluteFile_accounts (path : PathBuf) :
    Accounts Blamed (validateAndAbsoluteFile path) := by
  apply (absoluteUserPath_accounts path _).bind extends_blamed
  intro absolute
  have hIsDir : Accounts Blamed (sysCall (.pathIsDir absolute) : CrateM Bool) :=
    accounts_sysCall fun _ => clean_singleton fun _ h => nomatch h
  apply hIsDir.bind extends_blamed
  intro isDir
  cases isDir with
  | true => exact accounts_throw (.inl rfl)
  | false => exact accounts_pure _

/-- Every path is validated before the one native call. -/
theorem SessionCore.registerResources_accounts (core : SessionCore) (resources : ResourceBatch) :
    Accounts Blamed (core.registerResources resources) := by
  unfold SessionCore.registerResources
  split
  · exact accounts_pure _
  · apply (Accounts.mapM extends_blamed validateAndAbsoluteFile_accounts).bind extends_blamed
    intro files
    have hService (name : OsString) : Accounts Blamed (do
        ofResult (validateUserOsValue name "a service short name")
        return name : CrateM OsString) :=
      (accounts_validate name _).bind extends_blamed fun _ => accounts_pure _
    apply (Accounts.mapM extends_blamed hService).bind extends_blamed
    intro services
    exact accounts_mapErr (core.handle.registerResources_accounts _ _ _)

theorem SessionCore.affectedApplications_accounts (core : SessionCore) :
    Accounts Blamed core.affectedApplications :=
  (accounts_mapErr (RestartManager.affectedApplications_accounts _)).bind extends_blamed
    fun _ => accounts_pure _

/-- A filter that Windows returned and that the crate refuses has no code. -/
theorem filterFromRaw_own {filter : RawFilter} :
    ∀ error, filterFromRaw filter = .error error → error.rawOsError = none := by
  have hPath (path : PathBuf) : ∀ error, FilterTarget.fromRawExecutable path = .error error →
      error.rawOsError = none := by
    apply error_of_bind
    · apply error_of_bind
      · exact fun _ => validateOsValue_own
      · intro _ error hError
        split at hError <;> cases hError
        rfl
    · intro _ error hError
      cases hError
  have hService (name : OsString) : ∀ error, FilterTarget.fromRawService name = .error error →
      error.rawOsError = none := by
    apply error_of_bind
    · exact fun _ => validateOsValue_own
    · intro _ error hError
      cases hError
  intro error hError
  unfold filterFromRaw at hError
  dsimp only at hError
  split at hError
  case h_1 path _ =>
    revert error
    apply error_of_bind (hPath path)
    intro target error hError
    split_ifs at hError <;> cases hError
    rfl
  case h_2 process _ =>
    split_ifs at hError <;> cases hError
    all_goals rfl
  case h_3 name _ =>
    revert error
    apply error_of_bind (hService name)
    intro target error hError
    split_ifs at hError <;> cases hError
    rfl

/-- The filters are read back, and then each is converted. -/
theorem RestartSession.filters_accounts (session : RestartSession) : Accounts Blamed session.filters := by
  apply (accounts_mapErr (getFilters_accounts _)).bind extends_blamed
  intro raws
  apply accounts_ofResult
  intro error hError
  exact .inl (error_of_mapM (fun _ => filterFromRaw_own) error hError)

/-- The end reports its own call; that of the drop is not looked at. -/
theorem SessionCore.end_accounts {core : SessionCore} {result : Except Error Unit}
    (run : core.end.Exec trace result) : Accounted Blamed trace result := by
  obtain ⟨first, second, ⟨ended, handle⟩, rfl, hEnd, hRest⟩ := exec_bind_iff.mp run
  obtain ⟨dropped, last, ⟨⟩, rfl, hDrop, hDone⟩ := exec_bind_iff.mp hRest
  obtain ⟨rfl, rfl⟩ := exec_done_iff.mp hDone
  rw [List.append_nil]
  unfold SessionHandle.end at hEnd
  cases hEnded : core.handle.ended with
  | true =>
      rw [if_pos hEnded] at hEnd
      obtain ⟨rfl, hResult⟩ := exec_done_iff.mp hEnd
      cases hResult
      rcases exec_handle_drop_iff.mp hDrop with ⟨-, rfl⟩ | ⟨hOpen, -⟩
      · exact clean_nil
      · cases hEnded.symm.trans hOpen
  | false =>
      rw [if_neg (by rw [hEnded]; exact Bool.false_ne_true)] at hEnd
      obtain ⟨code, rest, rfl, hResult⟩ := exec_call_iff.mp hEnd
      obtain ⟨rfl, hResult⟩ := exec_done_iff.mp hResult
      cases hResult
      by_cases hOk : code = ERROR_SUCCESS
      · rcases exec_handle_drop_iff.mp hDrop with ⟨-, rfl⟩ | ⟨hOpen, -⟩
        · rw [check, if_pos hOk]
          exact clean_singleton fun code' h => .inl ((Option.some.inj h).symm.trans hOk)
        · rw [check, if_pos hOk] at hOpen
          cases hOpen
      · rw [check, if_neg hOk]
        exact .inr ⟨_, List.mem_cons_self, .operation rfl rfl hOk⟩

end Methods

/-! ### Operations -/

def OperationOutcome.errors : OperationOutcome → List Error
  | succeeded => []
  | failed error => [error]

def RecoveryOutcome.errors (outcome : RecoveryOutcome) : List Error :=
  outcome.shutdown.errors ++ outcome.restart.toList.flatMap OperationOutcome.errors

def errorsOf {α : Type} : Except Error α → List Error
  | .ok _ => []
  | .error error => [error]

/-- The errors that a value retains. -/
def Value.errors : Value → List Error
  | .session _ | .joined _ | .gone => []
  | .pending held => held.shutdown.toList.flatMap OperationOutcome.errors
  | .completion held => held.outcome.errors
  | .shutdownNotStarted refused => [refused.error]
  | .restartNotStarted refused =>
      refused.error :: refused.state.shutdown.toList.flatMap OperationOutcome.errors

/-- The errors that an operation shows its caller. -/
def Output.errors : Output → List Error
  | .done result => errorsOf result
  | .applications result => errorsOf result
  | .filters result => errorsOf result
  | .ended result => errorsOf result ++ (result.toOption.toList.flatMap RecoveryOutcome.errors)
  | .shutdownOutcome shown => shown.errors
  | .outcome shown => shown.errors
  | .notStarted error => [error]
  | .state | .panicked _ => []

/-- The operation returned a value, and not an error or a panic. -/
def Output.Succeeds : Output → Prop
  | .done (.ok _) | .applications (.ok _) | .filters (.ok _) | .ended (.ok _) => True
  | _ => False

/-- The operations that return their result and retain nothing of it. -/
def Op.Returns : Op → Prop
  | .registerResources _ | .registerFiles _ | .registerProcesses _ | .registerServices _
  | .affectedApplications | .setFilter .. | .removeFilter _ | .filters | .endSession => True
  | _ => False

section Operations

variable {value value' : Value} {op : Op} {output : Output} {p : Native (Value × Output)} {trace : Trace}
  {operation : Operation}

omit [Platform] in
theorem mem_errorsOf {α : Type} {result : Except Error α} {error : Error} :
    error ∈ errorsOf result ↔ result = .error error := by
  cases result with
  | ok value => simp [errorsOf]
  | error error' => simp [errorsOf, eq_comm]

/-- What a native call leaves in an outcome is its own error. -/
theorem outcome_blamed {event : Event} {reply : OperationReply} {trampoline : Bool}
    (hOf : event.1.operation? = some operation) (hCode : code? event = some reply.code)
    (hMem : event ∈ trace) : ∀ error ∈ (reply.outcome operation trampoline).errors, Blamed trace error := by
  intro error hError
  unfold OperationReply.outcome retainedOutcome at hError
  by_cases hFailed : reply.code ≠ ERROR_SUCCESS
  · rw [if_pos hFailed] at hError
    obtain rfl := List.mem_singleton.mp hError
    exact .inr ⟨event, hMem, .operation hOf hCode hFailed⟩
  · rw [if_neg hFailed] at hError
    by_cases hIncreasing : Increasing (if trampoline = true then reply.reports else [])
    · rw [if_pos hIncreasing] at hError
      cases hError
    · rw [if_neg hIncreasing] at hError
      obtain rfl := List.mem_singleton.mp hError
      exact .inl rfl

/-- A borrowing method that accounts for its errors. -/
theorem borrowing_accounted {α : Type} {method : CrateM α} {next : Except Error α → Output}
    (hMethod : Accounts Blamed method) (hErrors : ∀ result, (next result).errors = errorsOf result)
    (hSucceeds : ∀ result, (next result).Succeeds → result.isOk = true)
    (run : (borrowing value method next).Exec trace (value', output)) :
    value' = value ∧ (∀ error ∈ output.errors, Blamed trace error) ∧ (output.Succeeds → Clean trace) := by
  obtain ⟨first, last, result, rfl, hRun, hDone⟩ := exec_bind_iff.mp run
  obtain ⟨rfl, hResult⟩ := exec_done_iff.mp hDone
  cases hResult
  rw [List.append_nil]
  have hAccounted := hMethod _ _ hRun
  refine ⟨rfl, ?_, ?_⟩
  · intro error hError
    rw [hErrors] at hError
    obtain rfl := mem_errorsOf.mp hError
    exact hAccounted
  · intro hOk
    have hResult := hSucceeds result hOk
    cases result with
    | ok value => exact hAccounted
    | error error => cases hResult

/-- An error that is handed on from what was held, or is blamed on a call. -/
def Known (value : Value) (trace : Trace) (error : Error) : Prop :=
  error ∈ value.errors ∨ Blamed trace error

/-- What an operation shows and retains is known. One that returns its result
had no call that failed if it succeeds. -/
structure OpAccounted (value : Value) (op : Op) (trace : Trace) (value' : Value) (output : Output) : Prop where
  shown : ∀ error ∈ output.errors, Known value trace error
  retained : ∀ error ∈ value'.errors, Known value trace error
  clean : op.Returns → output.Succeeds → Clean trace

/-- An operation that borrows its value shows what its method returned. -/
theorem OpAccounted.borrowed {α : Type} {method : CrateM α} {next : Except Error α → Output}
    (hMethod : Accounts Blamed method) (hErrors : ∀ result, (next result).errors = errorsOf result)
    (hSucceeds : ∀ result, (next result).Succeeds → result.isOk = true)
    (run : (borrowing value method next).Exec trace (value', output)) :
    OpAccounted value op trace value' output := by
  obtain ⟨rfl, hShown, hClean⟩ := borrowing_accounted hMethod hErrors hSucceeds run
  exact ⟨fun error h => .inr (hShown error h), fun error h => .inl h, fun _ => hClean⟩

omit [Platform] in
theorem isOk_of_done {result : Except Error Unit} (h : (Output.done result).Succeeds) : result.isOk = true := by
  cases result with
  | ok value => rfl
  | error error => cases h

/-- A registration, for sessions of either kind. -/
theorem OpAccounted.registered (core : SessionCore) (resources : ResourceBatch)
    (run : (borrowing value (core.registerResources resources) .done).Exec trace (value', output)) :
    OpAccounted value op trace value' output :=
  .borrowed (core.registerResources_accounts resources) (fun _ => rfl) (fun _ => isOk_of_done) run

/-- A report, before a shutdown or after the recovery. -/
theorem OpAccounted.reported (core : SessionCore)
    (run : (borrowing value core.affectedApplications .applications).Exec trace (value', output)) :
    OpAccounted value op trace value' output := by
  refine .borrowed core.affectedApplications_accounts (fun _ => rfl) ?_ run
  intro result h
  cases result with
  | ok value => rfl
  | error error => cases h

/-- A filter method finds what its target names, so it does not panic. -/
theorem OpAccounted.filtered {target : FilterTarget} {method : RawFilterTarget → CrateM Unit}
    (h : ∀ raw, Accounts Blamed (method raw))
    (run : (borrowingUnwind value (do
      let raw ← ExceptT.mk (pure (rawFilterTarget target))
      ExceptT.lift (method raw).run : UnwindM (Except Error Unit)) .done).Exec trace (value', output)) :
    OpAccounted value op trace value' output := by
  obtain ⟨first, last, result, rfl, hRun, hDone⟩ := exec_bind_iff.mp run
  rw [rawFilterTarget_eq_ok] at hRun
  obtain ⟨returned, hMethod, rfl⟩ := exec_run_lift_iff.mp hRun
  obtain ⟨rfl, hResult⟩ := exec_done_iff.mp hDone
  cases hResult
  rw [List.append_nil]
  have hAccounted := h _ _ _ hMethod
  refine ⟨?_, fun error h => .inl h, ?_⟩
  · intro error hError
    obtain rfl := mem_errorsOf.mp hError
    exact .inr hAccounted
  · intro _ hOk
    cases returned with
    | ok value => exact hAccounted
    | error error => cases hOk

/-- An operation that ends its session leaves no value. -/
theorem OpAccounted.ended {core : SessionCore} {result : Except Error Unit}
    (run : core.end.Exec trace result) : OpAccounted value op trace .gone (.done result) := by
  have hAccounted := core.end_accounts run
  refine ⟨?_, nofun, ?_⟩
  · intro error hError
    obtain rfl := mem_errorsOf.mp hError
    exact .inr hAccounted
  · intro _ hOk
    cases result with
    | ok value => exact hAccounted
    | error error => cases hOk

/-- A value that retains the outcome of one call, beside what is handed on. -/
theorem OpAccounted.moved {event : Event} (operation : Operation) (reply : OperationReply)
    (trampoline : Bool) (hOf : event.1.operation? = some operation) (hCode : code? event = some reply.code)
    (hMem : event ∈ trace) (hOutput : output.errors = []) (hOp : ¬op.Returns)
    (hErrors : ∀ error ∈ value'.errors,
      error ∈ value.errors ∨ error ∈ (reply.outcome operation trampoline).errors) :
    OpAccounted value op trace value' output where
  shown error h := by
    rw [hOutput] at h
    cases h
  retained error h := (hErrors error h).imp_right (outcome_blamed hOf hCode hMem error)
  clean h := absurd h hOp

/-- What is handed on, and errors that the crate makes alone. -/
theorem OpAccounted.quiet (hOp : ¬op.Returns)
    (hShown : ∀ error ∈ output.errors, error ∈ value.errors ∨ error.rawOsError = none)
    (hRetained : ∀ error ∈ value'.errors, error ∈ value.errors ∨ error.rawOsError = none) :
    OpAccounted value op trace value' output where
  shown error h := (hShown error h).imp_right .inl
  retained error h := (hRetained error h).imp_right .inl
  clean h := absurd h hOp

/-- The outcome of a shutdown is retained in the value that is left. -/
theorem shutdownWithOptions_accounted {session : RestartSession} {options : ShutdownOptions}
    (hOp : ¬op.Returns) (run : (consuming (session.shutdownWithOptions options) fun pending =>
      (.pending pending, .state)).Exec trace (value', output)) :
    OpAccounted (.session session) op trace value' output := by
  obtain ⟨result, hMethod, hResult⟩ := exec_consuming run
  rw [shutdownWithOptions_run, Program.exec_call_iff] at hMethod
  obtain ⟨reply, rest, rfl, hReturn⟩ := hMethod
  obtain ⟨rfl, rfl⟩ := exec_done_iff.mp hReturn
  cases hResult
  refine .moved .shutdown reply false rfl rfl List.mem_cons_self rfl hOp ?_
  exact fun error h => .inr (by simpa [Value.errors] using h)

/-- Each operation of a session before its shutdown. -/
theorem performSession_accounted {session : RestartSession}
    (method : performSession session op = some p) (run : p.Exec trace (value', output)) :
    OpAccounted (.session session) op trace value' output := by
  cases op <;> simp only [performSession, reduceCtorEq, Option.some.injEq] at method <;> subst method
  case registerResources => exact .registered session.core _ run
  case registerFiles => exact .registered session.core _ run
  case registerProcesses => exact .registered session.core _ run
  case registerServices => exact .registered session.core _ run
  case affectedApplications => exact .reported session.core run
  case setFilter target action =>
    exact .filtered (fun raw => accounts_mapErr (session.core.handle.addFilter_accounts raw _)) run
  case removeFilter target =>
    exact .filtered (fun raw => accounts_mapErr (session.core.handle.removeFilter_accounts raw)) run
  case filters =>
    refine .borrowed session.filters_accounts (fun _ => rfl) ?_ run
    intro result h
    cases result with
    | ok value => rfl
    | error error => cases h
  case endSession =>
    obtain ⟨first, last, result, rfl, hEnd, hDone⟩ := exec_bind_iff.mp run
    obtain ⟨rfl, hResult⟩ := exec_done_iff.mp hDone
    cases hResult
    rw [List.append_nil]
    exact .ended hEnd
  case shutdown => exact shutdownWithOptions_accounted id run
  case shutdownWithOptions options => exact shutdownWithOptions_accounted id run
  case shutdownWithProgress options callback =>
    obtain ⟨result, hMethod, hResult⟩ := exec_consuming run
    cases exec_shutdownWithProgress_iff.mp hMethod with
    | refused =>
        cases hResult
        refine .quiet id ?_ ?_
        · exact fun error h => .inr (by rw [List.mem_singleton.mp h]; rfl)
        · exact fun error h => .inr (by rw [List.mem_singleton.mp h]; rfl)
    | @completed reply =>
        cases hResult
        refine .moved .shutdown reply true rfl rfl (List.mem_cons_of_mem _ List.mem_cons_self) rfl id ?_
        exact fun error h => .inr (by simpa [Value.errors] using h)
    | panicked =>
        cases hResult
        exact .quiet id (by simp [Output.errors]) (by simp [Value.errors])

/-- Each operation between the shutdown and the recovery. -/
theorem performPending_accounted {core : SessionCore} {outcome : OperationOutcome}
    (method : performPending ⟨some core, some outcome⟩ op = some p)
    (run : p.Exec trace (value', output)) :
    OpAccounted (.pending ⟨some core, some outcome⟩) op trace value' output := by
  cases op <;> simp only [performPending, reduceCtorEq, Option.some.injEq] at method <;> subst method
  case shutdownOutcome =>
    obtain ⟨rfl, hResult⟩ := exec_done_iff.mp run
    cases hResult
    refine .quiet id ?_ fun error h => .inl h
    intro error h
    have hShown : error ∈ outcome.errors := h
    exact .inl (by simpa [Value.errors] using hShown)
  case restart =>
    obtain ⟨result, hMethod, hResult⟩ := exec_consuming run
    rw [restart_run, Program.exec_call_iff] at hMethod
    obtain ⟨reply, rest, rfl, hReturn⟩ := hMethod
    obtain ⟨rfl, rfl⟩ := exec_done_iff.mp hReturn
    cases hResult
    refine .moved .restart reply false rfl rfl List.mem_cons_self rfl id ?_
    exact fun error h => by simpa [Value.errors, RecoveryOutcome.errors] using h
  case restartWithProgress callback =>
    obtain ⟨result, hMethod, hResult⟩ := exec_consuming run
    cases exec_restartWithProgress_iff.mp hMethod with
    | refused =>
        cases hResult
        refine .quiet id ?_ ?_
        · exact fun error h => .inr (by rw [List.mem_singleton.mp h]; rfl)
        · intro error h
          rcases List.mem_cons.mp h with rfl | h
          · exact .inr rfl
          · exact .inl h
    | @completed reply =>
        cases hResult
        refine .moved .restart reply true rfl rfl (List.mem_cons_of_mem _ List.mem_cons_self) rfl id ?_
        exact fun error h => by simpa [Value.errors, RecoveryOutcome.errors] using h
    | panicked =>
        cases hResult
        exact .quiet id (by simp [Output.errors]) (by simp [Value.errors])
  case leaveStopped =>
    obtain ⟨result, hMethod, hResult⟩ := exec_consuming run
    rw [leaveStopped_run] at hMethod
    obtain ⟨rfl, rfl⟩ := exec_done_iff.mp hMethod
    cases hResult
    refine .quiet id (by simp [Output.errors]) ?_
    exact fun error h => .inl (by simpa [Value.errors, RecoveryOutcome.errors] using h)

/-- Each operation of a session that was joined. -/
theorem performJoined_accounted {session : JoinedSession}
    (method : performJoined session op = some p) (run : p.Exec trace (value', output)) :
    OpAccounted (.joined session) op trace value' output := by
  cases op <;> simp only [performJoined, reduceCtorEq, Option.some.injEq] at method <;> subst method
  case registerResources => exact .registered session.core _ run
  case registerFiles => exact .registered session.core _ run
  case registerProcesses => exact .registered session.core _ run
  case registerServices => exact .registered session.core _ run
  case endSession =>
    obtain ⟨first, last, result, rfl, hEnd, hDone⟩ := exec_bind_iff.mp run
    obtain ⟨rfl, hResult⟩ := exec_done_iff.mp hDone
    cases hResult
    rw [List.append_nil]
    exact .ended hEnd

/-- Each operation after the recovery. -/
theorem performCompletion_accounted {completion : RecoveryCompletion}
    (method : performCompletion completion op = some p) (run : p.Exec trace (value', output)) :
    OpAccounted (.completion completion) op trace value' output := by
  cases op <;> simp only [performCompletion, reduceCtorEq, Option.some.injEq] at method <;> subst method
  case outcome =>
    obtain ⟨rfl, hResult⟩ := exec_done_iff.mp run
    cases hResult
    exact ⟨fun error h => .inl h, fun error h => .inl h, by simp [Op.Returns]⟩
  case affectedApplications => exact .reported completion.core run
  case endSession =>
    obtain ⟨first, last, result, rfl, hEnd, hDone⟩ := exec_bind_iff.mp run
    obtain ⟨rfl, hResult⟩ := exec_done_iff.mp hDone
    cases hResult
    obtain ⟨first, last, result', rfl, hCore, hMapped⟩ := exec_bind_iff.mp hEnd
    obtain ⟨rfl, rfl⟩ := exec_done_iff.mp hMapped
    rw [List.append_nil, List.append_nil]
    have hAccounted := completion.core.end_accounts hCore
    refine ⟨?_, by simp [Value.errors], ?_⟩
    · intro error hError
      cases result' with
      | ok value =>
          have hShown : error ∈ completion.outcome.errors := by
            simpa [Output.errors, errorsOf, Except.map, Except.toOption] using hError
          exact .inl hShown
      | error error' =>
          obtain rfl : error = error' := by
            simpa [Output.errors, errorsOf, Except.map, Except.toOption] using hError
          exact .inr hAccounted
    · intro _ hOk
      cases result' with
      | ok value => exact hAccounted
      | error error => cases hOk

/-- Every operation on a value that a session can be in accounts for its errors. -/
theorem perform_accounted {m : Monitor} (hFits : value.Fits m) (method : perform value op = some p)
    (run : p.Exec trace (value', output)) : OpAccounted value op trace value' output := by
  by_cases hDrop : op = .dropValue
  · subst hDrop
    have hDropped {first : Native Unit}
        (run : (do first; return ((.gone, .done (.ok ())) : Value × Output)).Exec trace (value', output)) :
        OpAccounted value .dropValue trace value' output := by
      obtain ⟨_, _, ⟨⟩, -, -, hDone⟩ := exec_bind_iff.mp run
      obtain ⟨-, hResult⟩ := exec_done_iff.mp hDone
      cases hResult
      exact .quiet id nofun nofun
    cases value <;> cases method <;> exact hDropped run
  cases hFits with
  | session hOpen => exact performSession_accounted (perform_session hDrop ▸ method) run
  | joined hOpen => exact performJoined_accounted (perform_joined hDrop ▸ method) run
  | pending hOpen => exact performPending_accounted (perform_pending hDrop ▸ method) run
  | completion hOpen hMet => exact performCompletion_accounted (perform_completion hDrop ▸ method) run
  | shutdownNotStarted hOpen =>
      cases op <;> cases method
      · obtain ⟨rfl, hResult⟩ := exec_done_iff.mp run
        cases hResult
        exact .quiet id nofun nofun
      · exact absurd rfl hDrop
  | restartNotStarted hOpen =>
      cases op <;> cases method
      · obtain ⟨rfl, hResult⟩ := exec_done_iff.mp run
        cases hResult
        exact .quiet id nofun fun error h => .inl (List.mem_cons_of_mem _ h)
      · exact absurd rfl hDrop
  | gone => cases op <;> cases method

end Operations

end RestartManager
