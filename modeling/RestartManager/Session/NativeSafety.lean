import RestartManager.Session.Operations
import RestartManager.Session.Registration
import RestartManager.Sys.FilterSafety

/-! What the unsafe calls of the adapter rely on. A grant is what the crate
holds when it makes a call, and a contract follows the grants through every
method, whatever Windows answers. -/
namespace RestartManager

open Interaction Contract

/-- The string ends where Windows stops reading it. -/
def WideString.Terminated (wide : WideString) : Prop := wide.buffer.getLast? = some 0

/-- A count is that of the buffer it is passed with, and a null pointer is
passed exactly with no elements. -/
def Counts {α : Type} (count : UInt32) (pointer : Option (List α)) : Prop :=
  count.toNat = (pointer.getD []).length ∧ pointer ≠ some []

/-- Exactly one of the pointers to the target of a filter is not null. -/
def OneTarget (filename : Option WideString) (process : Option RmUniqueProcess)
    (service : Option WideString) : Prop :=
  filename.isSome.toNat + process.isSome.toNat + service.isSome.toNat = 1

/-- What the crate holds. The handle is that of a start that succeeded, until
an end succeeds. The entries are those last reserved for a list of applications,
and the block is the one last allocated for a list of filters. -/
structure Grants where
  live : Option UInt32
  leased : Bool
  entries : Option Nat
  block : Option (Nat × Nat)
  deriving DecidableEq, Repr

def Grants.none : Grants := ⟨.none, false, .none, .none⟩

/-- The session handle that a call is made on. -/
def Call.handle? : Call → Option UInt32
  | .rmRegisterResources raw .. | .rmGetList raw _ | .rmAddFilter raw .. | .rmRemoveFilter raw ..
  | .rmGetFilterList raw .. | .rmShutdown raw .. | .rmRestart raw .. | .rmCancelCurrentTask raw
  | .rmEndSession raw => some raw
  | _ => none

/-- What the arguments of a call must satisfy among themselves. -/
def Call.WellFormed : Call → Prop
  | .rmJoinSession key => key.Terminated
  | .rmRegisterResources _ fileCount files processCount processes serviceCount services =>
      Counts fileCount files ∧ Counts processCount processes ∧ Counts serviceCount services ∧
        (∀ wide ∈ files.getD [], wide.Terminated) ∧ ∀ wide ∈ services.getD [], wide.Terminated
  | .rmAddFilter _ filename process service action => OneTarget filename process service ∧
      (∀ wide ∈ filename, wide.Terminated) ∧ (∀ wide ∈ service, wide.Terminated) ∧
        (action = RM_NO_RESTART ∨ action = RM_NO_SHUTDOWN)
  | .rmRemoveFilter _ filename process service => OneTarget filename process service ∧
      (∀ wide ∈ filename, wide.Terminated) ∧ ∀ wide ∈ service, wide.Terminated
  | .rmShutdown _ flags _ => flags &&& ~~~0x11 = 0
  | .rmRestart _ flags _ => flags = 0
  | _ => True

variable [Platform]

/-- What a call relies on besides its arguments. -/
def Grants.Permits (s : Grants) : Call → Prop
  | .rmStartSession | .rmJoinSession _ => s.live = .none
  -- The buffer has room for every entry that is offered.
  | .rmGetList _ supplied => supplied = 0 ∨ s.entries = some supplied.toNat
  | c@(.rmGetFilterList ..) | c@(.readUnaligned ..) => lendContract.guarantee s.block c
  -- The trampoline reads the slot, and the lease keeps the closure borrowed.
  | .rmShutdown _ _ trampoline | .rmRestart _ _ trampoline => trampoline = true → s.leased = true
  | .installLease => s.leased = false
  | .releaseLease | .invokeCallback _ | .sendReplace _ => s.leased = true
  | _ => True

def Grants.reserve (s : Grants) (count size : Nat) (response : Option (Allocation (count * size))) :
    Grants :=
  { s with
    entries := if size = processInfoSize then response.map fun _ => count else s.entries
    block := lendContract.next s.block (.tryReserveExact count size) response }

/-- Windows may answer anything. -/
def safetyContract : Contract Call.Response Grants where
  guarantee s c := (∀ raw ∈ c.handle?, s.live = some raw) ∧ c.WellFormed ∧ s.Permits c
  rely _ _ _ := True
  next s c := match c with
    | .rmStartSession => fun reply =>
        { s with live := if reply.code = ERROR_SUCCESS then some reply.raw else none }
    | .rmJoinSession _ => fun reply =>
        { s with live := if reply.code = ERROR_SUCCESS then some reply.raw else none }
    | .rmEndSession _ => fun code =>
        { s with live := if code = ERROR_SUCCESS then none else s.live }
    | .installLease => fun installed => { s with leased := installed }
    | .releaseLease => fun _ => { s with leased := false }
    | .tryReserveExact count size => s.reserve count size
    | _ => fun _ => s

/-- Every call of the exchange is made as its documentation asks. -/
def CallsSafely (trace : Trace) : Prop := safetyContract.Respects .none trace

variable {s : Grants}

omit [Platform] in
/-- The handle of a call is the one that is live. -/
theorem handle_live {raw : UInt32} (h : s.live = some raw) : ∀ raw' ∈ some raw, s.live = some raw' := by
  rintro raw' ⟨⟩
  exact h

/-! ### Calls that need no more than the handle -/

/-- A call of a session that needs nothing but its handle. -/
def Call.OnHandle (raw : UInt32) (c : Call) : Prop :=
  (∀ raw' ∈ c.handle?, raw' = raw) ∧ c.WellFormed ∧ (c.Registers ∨ c.ChangesFilter)

/-- While the handle is live, such calls need nothing else and grant nothing. -/
theorem safetyContract_onHandle {raw : UInt32} (hLive : s.live = some raw) :
    safetyContract.Ignores s (Call.OnHandle raw) := by
  intro c h
  obtain ⟨hHandle, hFormed, hKind⟩ := h
  refine ⟨⟨fun raw' hRaw => by rw [hHandle raw' hRaw, hLive], hFormed, ?_⟩, fun response _ => ?_⟩
  all_goals cases c <;> first | trivial | rfl | exact (hKind.elim id id).elim

omit [Platform] in
/-- The conversion appends the terminator. -/
theorem WideString.terminated_new (value : OsString) : (WideString.new value).Terminated := by
  simp [Terminated, new]

omit [Platform] in
/-- An empty list is passed as a null pointer with the count zero. -/
theorem counts_pointerOrNull {α : Type} {values : List α} {n : UInt32}
    (h : count values.length = .ok n) : Counts n (pointerOrNull values) := by
  obtain ⟨-, hCount⟩ := count_eq_ok h
  cases values with
  | nil => exact ⟨hCount, nofun⟩
  | cons value rest => exact ⟨hCount, by simp [pointerOrNull]⟩

/-! ### Registration -/

/-- The path calls of the crate touch no handle. -/
theorem validateAndAbsoluteFile_onHandle (raw : UInt32) (path : PathBuf) :
    Makes (Call.OnHandle raw) (validateAndAbsoluteFile path).run := by
  have hAbsolute (path : PathBuf) : Call.OnHandle raw (.pathAbsolute path) :=
    ⟨nofun, trivial, .inl trivial⟩
  have hDir (path : PathBuf) : Call.OnHandle raw (.pathIsDir path) := ⟨nofun, trivial, .inl trivial⟩
  have hPath : Makes (Call.OnHandle raw) (absoluteUserPath path "a file path").run := by
    refine (makes_ofResult _).run_bind fun _ => (makes_sysCall (hAbsolute _)).run_bind fun response => ?_
    cases response <;> exact makes_done _
  refine hPath.run_bind fun path => (makes_sysCall (hDir path)).run_bind fun isDir => ?_
  cases isDir <;> exact makes_done _

/-- Each list is passed with its own count. -/
theorem SessionHandle.registerResources_onHandle (handle : SessionHandle) (files : List PathBuf)
    (processes : List RawUniqueProcess) (services : List OsString) :
    Makes (Call.OnHandle handle.raw) (handle.registerResources files processes services).run := by
  unfold SessionHandle.registerResources
  cases hFiles : count files.length with
  | error error => exact makes_done _
  | ok fileCount =>
    cases hProcesses : count processes.length with
    | error error => exact makes_done _
    | ok processCount =>
      cases hServices : count services.length with
      | error error => exact makes_done _
      | ok serviceCount =>
          have hStrings (values : List OsString) :
              ∀ wide ∈ (pointerOrNull (values.map WideString.new)).getD [], wide.Terminated := by
            intro wide hMem
            have hMap : wide ∈ values.map WideString.new := by
              cases values with
              | nil => exact absurd hMem List.not_mem_nil
              | cons value rest => exact hMem
            obtain ⟨value, -, rfl⟩ := List.mem_map.mp hMap
            exact WideString.terminated_new value
          refine (makes_sysCall ⟨fun raw hRaw => (Option.some.inj hRaw).symm, ⟨?_, ?_, ?_, ?_, ?_⟩,
            .inl trivial⟩).run_bind fun code => makes_ofResult _
          · exact counts_pointerOrNull (by rw [List.length_map]; exact hFiles)
          · exact counts_pointerOrNull (by rw [List.length_map]; exact hProcesses)
          · exact counts_pointerOrNull (by rw [List.length_map]; exact hServices)
          · exact hStrings files
          · exact hStrings services

/-- A registration makes path calls, and the one of its handle. -/
theorem SessionCore.registerResources_onHandle (core : SessionCore) (resources : ResourceBatch) :
    Makes (Call.OnHandle core.handle.raw) (core.registerResources resources).run := by
  unfold SessionCore.registerResources
  split
  · exact makes_done _
  · refine (Makes.run_mapM (validateAndAbsoluteFile_onHandle _)).run_bind fun files => ?_
    have hService (name : OsString) : Makes (Call.OnHandle core.handle.raw) (do
        ofResult (validateUserOsValue name "a service short name")
        return name : CrateM OsString).run :=
      (makes_ofResult _).run_bind fun _ => makes_done _
    exact (Makes.run_mapM hService).run_bind fun services =>
      makes_mapErr (core.handle.registerResources_onHandle _ _ _) _

/-! ### Filters -/

omit [Platform] in
/-- One of the three pointers is set, to a terminated string or a process. -/
theorem FilterPointers.wellFormed_new (target : RawFilterTarget) :
    OneTarget (new target).filename (new target).process (new target).service ∧
      (∀ wide ∈ (new target).filename, wide.Terminated) ∧
      ∀ wide ∈ (new target).service, wide.Terminated := by
  cases target with
  | executable path =>
      refine ⟨rfl, ?_, nofun⟩
      rintro wide ⟨⟩
      exact WideString.terminated_new path
  | process value => exact ⟨rfl, nofun, nofun⟩
  | service name =>
      refine ⟨rfl, nofun, ?_⟩
      rintro wide ⟨⟩
      exact WideString.terminated_new name

/-- The target is passed as one pointer. -/
theorem SessionHandle.addFilter_onHandle (handle : SessionHandle) (target : RawFilterTarget)
    (action : Int32) : Makes (Call.OnHandle handle.raw) (handle.addFilter target action).run := by
  obtain ⟨hOne, hFilename, hService⟩ := FilterPointers.wellFormed_new target
  unfold SessionHandle.addFilter
  split
  · exact makes_done _
  · rename_i hAction
    refine (makes_sysCall ⟨fun raw hRaw => (Option.some.inj hRaw).symm,
      ⟨hOne, hFilename, hService, ?_⟩, .inr trivial⟩).run_bind fun _ => makes_ofResult _
    rwa [not_and_or, not_ne_iff, not_ne_iff] at hAction

theorem SessionHandle.removeFilter_onHandle (handle : SessionHandle) (target : RawFilterTarget) :
    Makes (Call.OnHandle handle.raw) (handle.removeFilter target).run :=
  (makes_sysCall ⟨fun _ hRaw => (Option.some.inj hRaw).symm, FilterPointers.wellFormed_new target,
    .inr trivial⟩).run_bind fun _ => makes_ofResult _

/-! ### Lists -/

/-- What holds while the owner of a handle makes no callback. -/
structure Grants.Owns (s : Grants) (raw : UInt32) : Prop where
  live : s.live = some raw
  free : s.leased = false

/-- A reservation leaves the session as it is. -/
theorem Grants.Owns.reserve {raw : UInt32} {count size : Nat}
    {response : Option (Allocation (count * size))} (h : s.Owns raw) :
    (s.reserve count size response).Owns raw :=
  ⟨h.live, h.free⟩

/-- By induction on the attempts left: each list is asked into the block that
was reserved for it. -/
theorem wp_fetchApplications {raw : UInt32} (attempts : Nat) (needed : UInt32) (h : s.Owns raw) :
    safetyContract.wp (fetchApplications raw attempts needed).run (fun _ s' => s'.Owns raw) s := by
  induction attempts generalizing needed s with
  | zero => exact h
  | succ attempts ih =>
      rw [fetchApplications, usizeTryFrom_eq, pure_bind, wp_run_bind, wp_sysCall]
      refine ⟨⟨nofun, trivial, trivial⟩, fun allocation _ => ?_⟩
      change Contract.wp _ _ _ (s.reserve needed.toNat processInfoSize allocation)
      cases allocation with
      | none => exact h.reserve
      | some allocation =>
          dsimp only
          rw [wp_run_bind, wp_sysCall]
          have hEntries : (s.reserve needed.toNat processInfoSize (some allocation)).entries =
              some needed.toNat := by simp [Grants.reserve]
          refine ⟨⟨handle_live h.live, trivial, .inr hEntries⟩, fun reply _ => ?_⟩
          dsimp only
          split
          · exact ih _ h.reserve
          · rw [wp_run_bind, wp_ofResult]
            cases check reply.code with
            | error error => exact h.reserve
            | ok value =>
                dsimp only
                rw [usizeTryFrom_eq, pure_bind]
                split
                · exact h.reserve
                · rw [wp_run_bind, wp_ofResult]
                  generalize List.mapM rawApplication _ = applications
                  cases applications <;> exact h.reserve

/-- The first call asks for the size only. -/
theorem wp_affectedApplications {raw : UInt32} (h : s.Owns raw) :
    safetyContract.wp (affectedApplications raw).run (fun _ s' => s'.Owns raw) s := by
  rw [affectedApplications, wp_run_bind, wp_sysCall]
  refine ⟨⟨handle_live h.live, trivial, .inl rfl⟩, fun first _ => ?_⟩
  dsimp only
  split
  · exact h
  · split
    · exact h
    · exact wp_fetchApplications _ _ h

/-- A call on this handle, or on none. -/
def Call.On (raw : UInt32) (c : Call) : Prop := ∀ raw' ∈ c.handle?, raw' = raw

/-- A buffer is zeroed before it is passed. -/
theorem AlignedBuffer.new_on (raw byteLen : UInt32) :
    Makes (Call.On raw) (AlignedBuffer.new byteLen).run := by
  refine (usizeTryFrom_makes _).run_bind fun length => ?_
  dsimp only
  split
  · exact makes_done _
  · refine (makes_sysCall nofun).run_bind fun response => ?_
    cases response <;> exact makes_done _

/-- The parser reads inside the buffer that it was given. -/
theorem parseFilterBuffer_on (raw : UInt32) (buffer : AlignedBuffer) (byteLen : Nat) :
    Makes (Call.On raw) (parseFilterBuffer buffer byteLen).run := by
  by_cases hLen : byteLen ≤ buffer.byteCapacity
  · apply makes_of_wp _ (reads_parseFilterBuffer hLen) (fun _ _ _ => trivial)
    intro n c hRead
    cases c <;> first | exact hRead.elim | exact nofun
  · rw [parseFilterBuffer_exceeds hLen]
    exact makes_done _

/-- By induction on the attempts left: each buffer is passed with its own size. -/
theorem fetchFilters_on (raw : UInt32) (attempts : Nat) (needed : UInt32) :
    Makes (Call.On raw) (fetchFilters raw attempts needed).run := by
  induction attempts generalizing needed with
  | zero => exact makes_done _
  | succ attempts ih =>
      unfold fetchFilters
      split
      · exact makes_done _
      · refine (AlignedBuffer.new_on _ _).run_bind fun buffer => ?_
        refine (makes_sysCall fun _ h => (Option.some.inj h).symm).run_bind fun reply => ?_
        dsimp only
        split
        · exact ih _
        · refine (makes_ofResult _).run_bind fun _ => ?_
          by_cases hValid : (if reply.needed = 0 then needed else reply.needed) > needed
          · rw [if_pos hValid]
            exact makes_done _
          · rw [if_neg hValid]
            exact parseFilterBuffer_on _ _ _

/-- The buffers of a listing come and go, the session stays. -/
theorem wp_getFilters {raw : UInt32} (h : s.Owns raw) :
    safetyContract.wp (getFilters raw).run (fun _ s' => s'.Owns raw) s := by
  have hCall : ∀ s' (block : Option (Nat × Nat)) (c : Call),
      (s'.Owns raw ∧ s'.block = block) → (lendContract.restrict (Call.On raw)).guarantee block c →
      safetyContract.guarantee s' c ∧ ∀ response, safetyContract.rely s' c response →
        (lendContract.restrict (Call.On raw)).rely block c response ∧
          (safetyContract.next s' c response).Owns raw ∧
          (safetyContract.next s' c response).block =
            (lendContract.restrict (Call.On raw)).next block c response := by
    rintro s' _ c ⟨hOwns, rfl⟩ ⟨hLent, hOn⟩
    have hLive : ∀ raw' ∈ c.handle?, s'.live = some raw' := by
      intro raw' hRaw
      rw [hOn raw' hRaw]
      exact hOwns.live
    cases c with
    | rmGetFilterList => exact ⟨⟨hLive, trivial, hLent⟩, fun _ _ => ⟨trivial, hOwns, rfl⟩⟩
    | readUnaligned => exact ⟨⟨hLive, trivial, hLent⟩, fun _ _ => ⟨trivial, hOwns, rfl⟩⟩
    | tryReserveExact => exact ⟨⟨hLive, trivial, trivial⟩, fun _ _ => ⟨trivial, hOwns.reserve, rfl⟩⟩
    | _ => exact hLent.elim
  rw [getFilters, wp_run_bind, wp_sysCall]
  refine ⟨⟨handle_live h.live, trivial, rfl⟩, fun first _ => ?_⟩
  dsimp only
  split
  · exact h
  · split
    · exact h
    · have hFetch := wp_restrict _ (lends_fetchFilters raw MAX_LIST_ATTEMPTS first.needed s.block)
        (fetchFilters_on raw _ _)
      apply wp_mono _ (wp_simulate _ hCall ⟨h, rfl⟩ hFetch)
      rintro result s' ⟨block, ⟨hOwns, -⟩, -⟩
      exact hOwns

/-! ### Callbacks -/

def Call.Delivers : Call → Prop
  | .invokeCallback _ | .sendReplace _ => True
  | _ => False

/-- The closure calls the caller and nothing native. -/
theorem deliverProgress_delivers (callback : Callback) (percent : UInt32) (state : Delivery) :
    Makes Call.Delivers (deliverProgress callback percent state) := by
  unfold deliverProgress
  split
  · exact makes_done _
  · split
    · exact makes_done _
    · split
      · exact makes_done _
      · cases callback with
        | user => exact (makes_request trivial).bind fun _ => makes_done _
        | watch => exact ((makes_request trivial).bind fun _ => makes_done _).bind fun _ => makes_done _

/-- A report calls the closure at most, and not after a panic. -/
theorem callCallback_delivers (callback : Callback) (state : CallbackState Delivery) (percent : UInt32) :
    Makes Call.Delivers (callCallback (deliverProgress callback) state percent) := by
  unfold callCallback
  split
  · exact makes_done _
  · exact (deliverProgress_delivers _ _ _).bind fun _ => makes_done _

/-- Reports arrive while the lease is held, and change nothing. -/
theorem safetyContract_delivers (hLeased : s.leased = true) :
    safetyContract.Ignores s Call.Delivers := by
  intro c h
  cases c <;> first | exact h.elim | exact ⟨⟨nofun, trivial, hLeased⟩, fun _ _ => rfl⟩

/-- The native call is made, and its reports delivered, with the lease held;
afterwards it is not. -/
theorem wp_withCallback {callback : Callback} {captured : Delivery} {raw : UInt32}
    {operation : Bool → Native OperationReply} {Q : Except Payload (SysResult Unit) × Delivery → Grants → Prop}
    (h : s.Owns raw) (hOperation : ∀ s', s'.live = some raw → s'.leased = true →
      safetyContract.wp (operation true) (fun _ s'' => s'' = s') s')
    (hResult : ∀ result s', s'.Owns raw → Q result s') :
    safetyContract.wp (runWithCallback (deliverProgress callback) captured operation) Q s := by
  refine ⟨⟨nofun, trivial, h.free⟩, fun installed _ => ?_⟩
  cases installed with
  | false => exact hResult _ _ ⟨h.live, rfl⟩
  | true =>
      change safetyContract.wp (operation true >>= _) _ { s with leased := true }
      apply (wp_bind _ _ _ _ _).mpr
      apply wp_mono _ (hOperation { s with leased := true } h.live rfl)
      rintro reply _ rfl
      apply (wp_bind _ _ _ _ _).mpr
      have hReports : Makes Call.Delivers (reply.reports.foldlM (callCallback (deliverProgress callback))
          { captured, panic := none }) := Makes.foldlM fun _ _ => callCallback_delivers callback _ _
      apply wp_mono _ (wp_of_makes _ hReports (safetyContract_delivers rfl))
      rintro state _ rfl
      refine ⟨⟨nofun, trivial, rfl⟩, fun _ _ => ?_⟩
      cases state.panic <;> exact hResult _ _ ⟨h.live, rfl⟩

/-! ### Moving on -/

/-- The owner of a core has not ended its session. -/
structure SessionCore.Held (core : SessionCore) (s : Grants) : Prop where
  ended : core.handle.ended = false
  owns : s.Owns core.handle.raw

def RestartPending.Held (pending : RestartPending) (s : Grants) : Prop :=
  ∀ core ∈ pending.core, core.Held s

/-- A drop ends the session unless it has been ended. -/
theorem wp_safe_handle_drop {handle : SessionHandle} (h : handle.ended = false → s.live = some handle.raw) :
    safetyContract.wp handle.drop (fun _ _ => True) s := by
  unfold SessionHandle.drop
  split
  · rename_i hOpen
    exact ⟨⟨handle_live (h (by simpa using hOpen)), trivial, trivial⟩, fun _ _ => trivial⟩
  · trivial

/-- A failed end leaves the session live. -/
theorem wp_safe_handle_end {handle : SessionHandle} (h : s.live = some handle.raw) :
    safetyContract.wp handle.end
      (fun result s' => result.2.ended = false → s'.live = some result.2.raw) s := by
  unfold SessionHandle.end
  split
  · exact fun _ => h
  · refine ⟨⟨handle_live h, trivial, trivial⟩, fun code _ hOpen => ?_⟩
    have hCode : code ≠ ERROR_SUCCESS := by
      rintro rfl
      cases hOpen
    change (if code = ERROR_SUCCESS then none else s.live) = some handle.raw
    rw [if_neg hCode]
    exact h

/-- The end is tried at most twice, on a handle that is still open. -/
theorem wp_safe_core_end {core : SessionCore} (h : core.Held s) :
    safetyContract.wp core.end (fun _ _ => True) s := by
  apply (wp_bind _ _ _ _ _).mpr
  apply wp_mono _ (wp_safe_handle_end h.owns.live)
  rintro ⟨result, handle⟩ s' hOpen
  apply (wp_bind _ _ _ _ _).mpr
  exact wp_mono _ (wp_safe_handle_drop hOpen) fun _ _ _ => trivial

/-- A restart without a callback passes no trampoline. -/
theorem wp_safe_handle_restart {handle : SessionHandle} (h : s.Owns handle.raw) :
    safetyContract.wp handle.restart.run (fun _ s' => s' = s) s := by
  unfold SessionHandle.restart
  rw [wp_run_bind, wp_sysCall]
  exact ⟨⟨handle_live h.live, rfl, nofun⟩, fun _ _ => rfl⟩

/-- The drop of a pending value restarts once, and then ends. -/
theorem wp_safe_pending_drop {pending : RestartPending} (h : pending.Held s) :
    safetyContract.wp pending.drop (fun _ _ => True) s := by
  unfold RestartPending.drop
  cases hCore : pending.core with
  | none => trivial
  | some core =>
      have hHeld := h core hCore
      apply (wp_bind _ _ _ _ _).mpr
      apply wp_mono _ (wp_safe_handle_restart hHeld.owns)
      rintro _ _ rfl
      exact wp_safe_handle_drop fun _ => hHeld.owns.live

/-- The calls are safe, and so is what is returned; a panic returns nothing. -/
def ReturnsSafely {α : Type} (method : UnwindM α) (s : Grants) (Q : α → Grants → Prop) : Prop :=
  safetyContract.wp method.run (fun result s' => ∀ value, result = .ok value → Q value s') s

section Rules

variable {α β : Type} {method : Native α} {f : α → UnwindM β} {Q : β → Grants → Prop}

theorem ReturnsSafely.pure {value : β} (h : Q value s) : ReturnsSafely (pure value) s Q := by
  rintro _ ⟨⟩
  exact h

/-- A native part of a method that may unwind. -/
theorem ReturnsSafely.lift_bind (h : safetyContract.wp method (fun result s' =>
    ReturnsSafely (f result) s' Q) s) : ReturnsSafely (ExceptT.lift method >>= f) s Q :=
  (wp_run_bind _ _ _ _ _).mpr ((wp_run_lift _ _ _ _).mpr h)

/-- Each part begins in the state that the one before left. -/
theorem ReturnsSafely.bind {method : UnwindM α} {R : α → Grants → Prop} (h : ReturnsSafely method s R)
    (hf : ∀ value s', R value s' → ReturnsSafely (f value) s' Q) : ReturnsSafely (method >>= f) s Q := by
  apply (wp_run_bind _ _ _ _ _).mpr
  apply wp_mono _ h
  intro result s' hResult
  cases result with
  | error payload => exact nofun
  | ok value => exact hf value s' (hResult value rfl)

/-- A panic drops the pending value on the way out. -/
theorem ReturnsSafely.unwinding_bind {pending : RestartPending} {result : Except Payload α}
    (h : pending.Held s) (hf : ∀ value, result = .ok value → ReturnsSafely (f value) s Q) :
    ReturnsSafely (pending.unwinding result >>= f) s Q := by
  cases result with
  | ok value => exact hf value rfl
  | error payload =>
      unfold RestartPending.unwinding
      dsimp only
      rw [bind_assoc]
      apply ReturnsSafely.lift_bind
      apply wp_mono _ (wp_safe_pending_drop h)
      intro _ s' _
      exact nofun

end Rules

section Methods

/-- What a method with progress returns, or hands back when it is refused. -/
def OrHandedBack {T α : Type} (returned : α → Grants → Prop) (kept : T → Grants → Prop) :
    Except (OperationNotStarted T) α → Grants → Prop
  | .ok value, s => returned value s
  | .error error, s => kept error.state s

variable {pending : RestartPending}

omit [Platform] in
/-- A new pending value holds the session that it was given. -/
theorem RestartPending.held_new {core : SessionCore} (h : core.Held s) :
    (RestartPending.new core).Held s := by
  rintro _ ⟨⟩
  exact h

omit [Platform] in
/-- What a pending value lends is the session that it holds. -/
theorem RestartPending.Held.of_coreRef {core : SessionCore} (h : pending.Held s)
    (hCore : pending.coreRef = .ok core) : core.Held s := by
  obtain ⟨held, shutdown⟩ := pending
  cases held <;> cases hCore
  exact h _ rfl

/-- What completes a recovery keeps the core. -/
theorem completing_safe (restart : Option OperationOutcome) (h : pending.Held s) :
    ReturnsSafely (do
      let (shutdown, pending) ← pending.unwinding pending.takeShutdown
      let outcome : RecoveryOutcome := { shutdown, restart }
      let (core, pending) ← pending.unwinding pending.takeCore
      ExceptT.lift pending.drop
      return { core, outcome } : UnwindM RecoveryCompletion) s
      fun completion s' => completion.core.Held s' := by
  apply ReturnsSafely.unwinding_bind h
  intro taken hTaken
  obtain ⟨held, _ | outcome⟩ := pending <;> cases hTaken
  apply ReturnsSafely.unwinding_bind h
  intro taken hTaken
  obtain _ | core := held <;> cases hTaken
  exact .pure (h core rfl)

omit [Platform] in
/-- A flag that is not documented is never passed. -/
theorem ShutdownOptions.nativeFlags_documented (options : ShutdownOptions) :
    options.nativeFlags &&& ~~~0x11 = 0 := by
  obtain ⟨force, required⟩ := options
  cases force <;> cases required <;> rfl

/-- The session is in the pending value before the call is made. -/
theorem RestartSession.shutdownWithOptions_safe {session : RestartSession} (options : ShutdownOptions)
    (h : session.core.Held s) :
    ReturnsSafely (session.shutdownWithOptions options) s RestartPending.Held := by
  have hPending := RestartPending.held_new h
  apply ReturnsSafely.unwinding_bind hPending
  rintro core ⟨⟩
  apply ReturnsSafely.lift_bind
  unfold SessionHandle.shutdown
  rw [wp_mapErr, wp_run_bind, wp_sysCall]
  exact ⟨⟨handle_live h.owns.live, options.nativeFlags_documented, nofun⟩, fun _ _ => .pure hPending⟩

/-- The session moves to the completion after the call. -/
theorem RestartPending.restart_safe (h : pending.Held s) :
    ReturnsSafely pending.restart s fun completion s' => completion.core.Held s' := by
  apply ReturnsSafely.unwinding_bind h
  intro core hCore
  apply ReturnsSafely.lift_bind
  rw [wp_mapErr]
  apply wp_mono _ (wp_safe_handle_restart (h.of_coreRef hCore).owns)
  rintro result _ rfl
  exact completing_safe _ h

/-- No native call is made. -/
theorem RestartPending.leaveStopped_safe (h : pending.Held s) :
    ReturnsSafely pending.leaveStopped s fun completion s' => completion.core.Held s' :=
  completing_safe none h

/-- A shutdown with progress unwinds with its session held, or gives it back. -/
theorem RestartSession.shutdownWithProgress_safe {session : RestartSession} (options : ShutdownOptions)
    (callback : Callback) (h : session.core.Held s) :
    ReturnsSafely (session.shutdownWithProgress options callback) s
      (OrHandedBack RestartPending.Held fun session s' => session.core.Held s') := by
  apply ReturnsSafely.unwinding_bind (RestartPending.held_new h)
  rintro core ⟨⟩
  apply ReturnsSafely.lift_bind
  apply wp_withCallback h.owns
  · intro s' hLive hLeased
    exact ⟨⟨handle_live hLive, options.nativeFlags_documented, fun _ => hLeased⟩, fun _ _ => rfl⟩
  rintro ⟨outcome, delivery⟩ s' hOwns
  have hCore : session.core.Held s' := ⟨h.ended, hOwns⟩
  have hPending := RestartPending.held_new hCore
  apply ReturnsSafely.unwinding_bind hPending
  intro result _
  cases result with
  | ok value => exact .pure hPending
  | error error =>
      dsimp only
      split
      · apply ReturnsSafely.unwinding_bind hPending
        rintro _ ⟨⟩
        exact .pure hCore
      · exact .pure hPending

/-- A restart with progress keeps the session that it holds, or hands it back. -/
theorem RestartPending.restartWithProgress_safe (callback : Callback) (h : pending.Held s) :
    ReturnsSafely (pending.restartWithProgress callback) s
      (OrHandedBack (fun completion s' => completion.core.Held s') RestartPending.Held) := by
  apply ReturnsSafely.unwinding_bind h
  intro core hCore
  obtain ⟨_ | held, shutdown⟩ := pending <;> cases hCore
  have hHeld := h core rfl
  apply ReturnsSafely.lift_bind
  apply wp_withCallback hHeld.owns
  · intro s' hLive hLeased
    exact ⟨⟨handle_live hLive, rfl, fun _ => hLeased⟩, fun _ _ => rfl⟩
  rintro ⟨outcome, delivery⟩ s' hOwns
  have hPending : RestartPending.Held ⟨some core, shutdown⟩ s' := by
    rintro _ ⟨⟩
    exact ⟨hHeld.ended, hOwns⟩
  have hComplete (restart : OperationOutcome) : ReturnsSafely (do
      return .ok (← RestartPending.complete ⟨some core, shutdown⟩ restart) :
        UnwindM (Except (OperationNotStarted RestartPending) RecoveryCompletion)) s'
      (OrHandedBack (fun completion s' => completion.core.Held s') RestartPending.Held) :=
    (completing_safe (some restart) hPending).bind fun completion s' hHeld => .pure hHeld
  apply ReturnsSafely.unwinding_bind hPending
  intro result _
  cases result with
  | ok value => exact hComplete _
  | error error =>
      dsimp only
      split
      · exact .pure hPending
      · exact hComplete _

end Methods

/-! ### Operations -/

/-- What an owner holds is not ended, and no callback is under way. -/
def Value.Held : Value → Grants → Prop
  | .session value, s => value.core.Held s
  | .joined value, s => value.core.Held s
  | .pending value, s => value.Held s
  | .completion value, s => value.core.Held s
  | .shutdownNotStarted error, s => error.state.core.Held s
  | .restartNotStarted error, s => error.state.Held s
  | .gone, _ => True

theorem wp_safe_core_drop {core : SessionCore} (h : core.Held s) :
    safetyContract.wp core.drop (fun _ _ => True) s :=
  wp_safe_handle_drop fun _ => h.owns.live

/-- Whatever the caller holds can be dropped. -/
theorem Value.drop_safe {value : Value} (h : value.Held s) :
    safetyContract.wp value.drop (fun _ _ => True) s := by
  cases value with
  | session session => exact wp_safe_core_drop h
  | joined session => exact wp_safe_core_drop h
  | pending pending => exact wp_safe_pending_drop h
  | completion completion => exact wp_safe_core_drop h
  | shutdownNotStarted error => exact wp_safe_core_drop h
  | restartNotStarted error => exact wp_safe_pending_drop h
  | gone => trivial

section Operations

variable {value : Value} {op : Op} {p : Native (Value × Output)}

/-- A method that borrows leaves its value held. -/
theorem borrowing_safe {α : Type} {method : CrateM α} {output : Except Error α → Output}
    (h : safetyContract.wp method.run (fun _ s' => value.Held s') s) :
    safetyContract.wp (borrowing value method output) (fun result s' => result.1.Held s') s :=
  (wp_bind _ _ _ _ _).mpr (wp_mono _ h fun _ _ hHeld => hHeld)

theorem borrowingUnwind_safe {α : Type} {method : UnwindM (Except Error α)}
    {output : Except Error α → Output} (h : safetyContract.wp method.run (fun _ s' => value.Held s') s) :
    safetyContract.wp (borrowingUnwind value method output) (fun result s' => result.1.Held s') s := by
  apply (wp_bind _ _ _ _ _).mpr
  apply wp_mono _ h
  intro result s' hHeld
  cases result <;> exact hHeld

/-- A method that takes its value leaves the next one held. -/
theorem consuming_safe {α : Type} {method : UnwindM α} {next : α → Value × Output}
    (h : ReturnsSafely method s fun result s' => (next result).1.Held s') :
    safetyContract.wp (consuming method next) (fun result s' => result.1.Held s') s := by
  apply wp_consuming
  apply wp_mono _ h
  intro result s' hResult
  cases result with
  | error payload => trivial
  | ok value => exact hResult value rfl

theorem ending_safe {core : SessionCore} {result : Except Error Unit → Output} (h : core.Held s) :
    safetyContract.wp (do return (.gone, result (← core.end)) : Native (Value × Output))
      (fun result s' => result.1.Held s') s :=
  (wp_bind _ _ _ _ _).mpr (wp_mono _ (wp_safe_core_end h) fun _ _ _ => trivial)

/-- A method that makes only calls on the handle. -/
theorem onHandle_safe {core : SessionCore} {α : Type} {method : Native α} (h : core.Held s)
    (hMakes : Makes (Call.OnHandle core.handle.raw) method) :
    safetyContract.wp method (fun _ s' => core.Held s') s := by
  apply wp_mono _ (wp_of_makes _ hMakes (safetyContract_onHandle h.owns.live))
  rintro _ _ rfl
  exact h

theorem registerResources_safe {core : SessionCore} (resources : ResourceBatch) (h : core.Held s) :
    safetyContract.wp (core.registerResources resources).run (fun _ s' => core.Held s') s :=
  onHandle_safe h (core.registerResources_onHandle resources)

theorem affectedApplications_safe {core : SessionCore} (h : core.Held s) :
    safetyContract.wp core.affectedApplications.run (fun _ s' => core.Held s') s := by
  unfold SessionCore.affectedApplications
  rw [wp_run_bind, wp_mapErr]
  apply wp_mono _ (wp_affectedApplications h.owns)
  intro result s' hOwns
  cases result <;> exact ⟨h.ended, hOwns⟩

theorem filters_safe {session : RestartSession} (h : session.core.Held s) :
    safetyContract.wp session.filters.run (fun _ s' => session.core.Held s') s := by
  unfold RestartSession.filters
  rw [wp_run_bind, wp_mapErr]
  apply wp_mono _ (wp_getFilters h.owns)
  intro result s' hOwns
  cases result <;> exact ⟨h.ended, hOwns⟩

/-- Each operation of a session before its shutdown. -/
theorem performSession_safe {session : RestartSession} (h : session.core.Held s)
    (hOp : performSession session op = some p) :
    safetyContract.wp p (fun result s' => result.1.Held s') s := by
  have hTarget (target : FilterTarget) {rest : RawFilterTarget → SysM Unit} {f : SysError → Error}
      (hRest : ∀ raw, Makes (Call.OnHandle session.core.handle.raw) (rest raw).run) :
      safetyContract.wp (do
        let raw ← ExceptT.mk (pure (rawFilterTarget target))
        ExceptT.lift (mapErr (rest raw) f).run : UnwindM (Except Error Unit)).run
        (fun _ s' => session.core.Held s') s :=
    onHandle_safe h ((makes_done (rawFilterTarget target)).run_bind fun raw =>
      (makes_mapErr (hRest raw) f).run_lift)
  cases op <;> simp only [performSession, reduceCtorEq, Option.some.injEq] at hOp <;> subst hOp
  case registerResources => exact borrowing_safe (registerResources_safe _ h)
  case registerFiles => exact borrowing_safe (registerResources_safe _ h)
  case registerProcesses => exact borrowing_safe (registerResources_safe _ h)
  case registerServices => exact borrowing_safe (registerResources_safe _ h)
  case affectedApplications => exact borrowing_safe (affectedApplications_safe h)
  case setFilter target action =>
    exact borrowingUnwind_safe (hTarget target fun raw => session.core.handle.addFilter_onHandle raw _)
  case removeFilter target =>
    exact borrowingUnwind_safe (hTarget target session.core.handle.removeFilter_onHandle)
  case filters => exact borrowing_safe (filters_safe h)
  case shutdown => exact consuming_safe (session.shutdownWithOptions_safe _ h)
  case shutdownWithOptions options => exact consuming_safe (session.shutdownWithOptions_safe options h)
  case shutdownWithProgress options callback =>
    apply consuming_safe
    apply wp_mono _ (session.shutdownWithProgress_safe options callback h)
    rintro result s' hResult (error | pending) hValue
    · exact hResult _ hValue
    · exact hResult _ hValue
  case endSession => exact ending_safe h

/-- Each operation of a session that was joined. -/
theorem performJoined_safe {session : JoinedSession} (h : session.core.Held s)
    (hOp : performJoined session op = some p) :
    safetyContract.wp p (fun result s' => result.1.Held s') s := by
  cases op <;> simp only [performJoined, reduceCtorEq, Option.some.injEq] at hOp <;> subst hOp
  case registerResources => exact borrowing_safe (registerResources_safe _ h)
  case registerFiles => exact borrowing_safe (registerResources_safe _ h)
  case registerProcesses => exact borrowing_safe (registerResources_safe _ h)
  case registerServices => exact borrowing_safe (registerResources_safe _ h)
  case endSession => exact ending_safe h

/-- Each operation between the shutdown and the recovery. -/
theorem performPending_safe {pending : RestartPending} (h : pending.Held s)
    (hOp : performPending pending op = some p) :
    safetyContract.wp p (fun result s' => result.1.Held s') s := by
  cases op <;> simp only [performPending, reduceCtorEq, Option.some.injEq] at hOp <;> subst hOp
  case shutdownOutcome => cases pending.shutdownOutcome <;> exact h
  case restart => exact consuming_safe (RestartPending.restart_safe h)
  case restartWithProgress callback =>
    apply consuming_safe
    apply wp_mono _ (RestartPending.restartWithProgress_safe callback h)
    rintro result s' hResult (error | completion) hValue
    · exact hResult _ hValue
    · exact hResult _ hValue
  case leaveStopped => exact consuming_safe (RestartPending.leaveStopped_safe h)

/-- Each operation after the recovery. -/
theorem performCompletion_safe {completion : RecoveryCompletion} (h : completion.core.Held s)
    (hOp : performCompletion completion op = some p) :
    safetyContract.wp p (fun result s' => result.1.Held s') s := by
  cases op <;> simp only [performCompletion, reduceCtorEq, Option.some.injEq] at hOp <;> subst hOp
  case outcome => exact h
  case affectedApplications => exact borrowing_safe (affectedApplications_safe h)
  case endSession =>
    apply (wp_bind _ _ _ _ _).mpr
    apply (wp_bind _ _ _ _ _).mpr
    exact wp_mono _ (wp_safe_core_end h) fun _ _ _ => trivial

/-- Every operation calls safely, and keeps what its owner holds. -/
theorem perform_safe (h : value.Held s) (hOp : perform value op = some p) :
    safetyContract.wp p (fun result s' => result.1.Held s') s := by
  by_cases hDrop : op = .dropValue
  · subst hDrop
    have hDropped : safetyContract.wp (do
        value.drop
        return ((.gone, .done (.ok ())) : Value × Output)) (fun result s' => result.1.Held s') s :=
      (wp_bind _ _ _ _ _).mpr (wp_mono _ (Value.drop_safe h) fun _ _ _ => trivial)
    cases value <;> cases hOp <;> exact hDropped
  cases value with
  | session session => exact performSession_safe h (perform_session hDrop ▸ hOp)
  | joined session => exact performJoined_safe h (perform_joined hDrop ▸ hOp)
  | pending pending => exact performPending_safe h (perform_pending hDrop ▸ hOp)
  | completion completion => exact performCompletion_safe h (perform_completion hDrop ▸ hOp)
  | shutdownNotStarted error =>
      cases op <;> cases hOp
      · exact h
      · exact absurd rfl hDrop
  | restartNotStarted error =>
      cases op <;> cases hOp
      · exact h
      · exact absurd rfl hDrop
  | gone => cases op <;> cases hOp

end Operations

end RestartManager
