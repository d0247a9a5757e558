import RestartManager.Application
import RestartManager.Interaction.Contract
import RestartManager.Shutdown

/-! The boundary of the crate: every native entry point it calls, and every
service of the standard library whose answer is not determined by its
arguments. Each call carries what the crate passes, and each reply carries
the return code together with every output parameter. -/
namespace RestartManager

structure FileTime where
  dwLowDateTime : UInt32
  dwHighDateTime : UInt32
  deriving DecidableEq, Repr

structure RmUniqueProcess where
  dwProcessId : UInt32
  processStartTime : FileTime
  deriving DecidableEq, Repr

/-- `RM_PROCESS_INFO`; the two names are fixed-width UTF-16 fields. -/
structure RmProcessInfo where
  process : RmUniqueProcess
  strAppName : Vector UInt16 256
  strServiceShortName : Vector UInt16 64
  applicationType : Int32
  appStatus : UInt32
  tsSessionId : UInt32
  bRestartable : Int32
  deriving DecidableEq, Repr

instance : Inhabited RmProcessInfo where
  default :=
    { process := ⟨0, ⟨0, 0⟩⟩
      strAppName := .replicate 256 0
      strServiceShortName := .replicate 64 0
      applicationType := 0
      appStatus := 0
      tsSessionId := 0
      bRestartable := 0 }

/-- A NUL-terminated UTF-16 string as it is passed to Windows. -/
structure WideString where
  buffer : List UInt16
  deriving DecidableEq, Repr

/-- The callback that receives validated progress: a caller's closure, or the
sender of a watch channel. -/
inductive Callback
  | user
  | watch
  deriving DecidableEq, Repr

/-- What a panic carries: a caller's own payload, or the text of an `expect`. -/
inductive Payload
  | user (payload : Nat)
  | expect (message : String)
  deriving DecidableEq, Repr

/-- An allocated object neither starts at the null address nor wraps around
the address space. -/
structure Allocation [Platform] (size : Nat) where
  base : Nat
  base_ne_zero : base ≠ 0
  base_add_le : base + size ≤ Platform.usizeMax

inductive Call
  | rmStartSession
  | rmJoinSession (key : WideString)
  | rmRegisterResources (raw : UInt32)
      (fileCount : UInt32) (files : Option (List WideString))
      (processCount : UInt32) (processes : Option (List RmUniqueProcess))
      (serviceCount : UInt32) (services : Option (List WideString))
  | rmGetList (raw : UInt32) (supplied : UInt32)
  | rmAddFilter (raw : UInt32) (filename : Option WideString)
      (process : Option RmUniqueProcess) (service : Option WideString) (action : Int32)
  | rmRemoveFilter (raw : UInt32) (filename : Option WideString)
      (process : Option RmUniqueProcess) (service : Option WideString)
  | rmGetFilterList (raw : UInt32) (buffer : Option Nat) (supplied : UInt32)
  | rmShutdown (raw : UInt32) (flags : UInt32) (trampoline : Bool)
  | rmRestart (raw : UInt32) (flags : UInt32) (trampoline : Bool)
  | rmCancelCurrentTask (raw : UInt32)
  | rmEndSession (raw : UInt32)
  /-- `CallbackLease::install`; the response says whether the slot was free. -/
  | installLease
  /-- The drop of a `CallbackLease`. -/
  | releaseLease
  /-- One invocation of a caller's closure; it returns or it panics. -/
  | invokeCallback (progress : Progress)
  /-- `watch::Sender::send_replace`. -/
  | sendReplace (progress : Progress)
  /-- A fallible reservation of `count` elements of `size` bytes. -/
  | tryReserveExact (count size : Nat)
  /-- An unaligned read of `length` bytes from the buffer a native call filled. -/
  | readUnaligned (address length : Nat)
  | pathAbsolute (path : PathBuf)
  | pathIsDir (path : PathBuf)

structure StartReply where
  code : UInt32
  raw : UInt32
  key : Vector UInt16 33

structure JoinReply where
  code : UInt32
  raw : UInt32

/-- The values of every output parameter after the call returns. The entries
are those written from the start of the supplied buffer. -/
structure GetListReply where
  code : UInt32
  needed : UInt32
  supplied : UInt32
  entries : List RmProcessInfo
  rebootReasons : UInt32

/-- The bytes are those written from the start of the supplied buffer. -/
structure GetFilterListReply where
  code : UInt32
  needed : UInt32
  written : List UInt8

/-- A call that took the trampoline raised these reports before it returned. -/
structure OperationReply where
  reports : List UInt32
  code : UInt32

variable [Platform]

abbrev Call.Response : Call → Type
  | rmStartSession => StartReply
  | rmJoinSession _ => JoinReply
  | rmRegisterResources .. => UInt32
  | rmGetList .. => GetListReply
  | rmAddFilter .. => UInt32
  | rmRemoveFilter .. => UInt32
  | rmGetFilterList .. => GetFilterListReply
  | rmShutdown .. => OperationReply
  | rmRestart .. => OperationReply
  | rmCancelCurrentTask _ => UInt32
  | rmEndSession _ => UInt32
  | installLease => Bool
  | releaseLease => Unit
  | invokeCallback _ => Option Payload
  | sendReplace _ => Unit
  | tryReserveExact count size => Option (Allocation (count * size))
  | readUnaligned _ _ => Unit
  | pathAbsolute _ => Except (Option UInt32) PathBuf
  | pathIsDir _ => Bool

/-- Every call can be answered. -/
theorem Call.answered (c : Call) : Nonempty c.Response := by
  cases c with
  | rmStartSession => exact ⟨⟨0, 0, .replicate 33 0⟩⟩
  | rmJoinSession key => exact ⟨⟨0, 0⟩⟩
  | rmRegisterResources => exact ⟨ERROR_SUCCESS⟩
  | rmGetList => exact ⟨⟨0, 0, 0, [], 0⟩⟩
  | rmAddFilter => exact ⟨ERROR_SUCCESS⟩
  | rmRemoveFilter => exact ⟨ERROR_SUCCESS⟩
  | rmGetFilterList => exact ⟨⟨0, 0, []⟩⟩
  | rmShutdown => exact ⟨⟨[], 0⟩⟩
  | rmRestart => exact ⟨⟨[], 0⟩⟩
  | rmCancelCurrentTask raw => exact ⟨ERROR_SUCCESS⟩
  | rmEndSession raw => exact ⟨ERROR_SUCCESS⟩
  | installLease => exact ⟨true⟩
  | releaseLease => exact ⟨()⟩
  | invokeCallback progress => exact ⟨none⟩
  | sendReplace progress => exact ⟨()⟩
  | tryReserveExact count size => exact ⟨none⟩
  | readUnaligned => exact ⟨()⟩
  | pathAbsolute path => exact ⟨.error none⟩
  | pathIsDir path => exact ⟨true⟩

abbrev Native (α : Type) := Interaction.Program Call Call.Response α

abbrev Event := Interaction.Event Call.Response

abbrev Trace := Interaction.Trace Call.Response

/-- A native computation that stops at its first adapter error. -/
abbrev SysM (α : Type) := ExceptT SysError Native α

/-- A native computation that stops at its first crate error. -/
abbrev CrateM (α : Type) := ExceptT Error Native α

/-- A computation that may unwind with the payload of a panic. -/
abbrev UnwindM (α : Type) := ExceptT Payload Native α

/-- A request to the environment inside a fallible computation. -/
def sysCall {ε : Type} (c : Call) : ExceptT ε Native c.Response :=
  ExceptT.lift (Interaction.Program.request c)

/-- The `?` operator on a result that is already there. -/
def ofResult {ε α : Type} (result : Except ε α) : ExceptT ε Native α := ExceptT.mk (pure result)

/-- A fallible sequence whose first part does not fail. -/
theorem run_lift_bind {ε α β : Type} (p : Native α) (f : α → ExceptT ε Native β) :
    (ExceptT.lift p >>= f).run = p >>= fun result => (f result).run := by
  rw [ExceptT.run_bind, ExceptT.run_lift, map_eq_pure_bind, bind_assoc]
  simp only [pure_bind]

section Rules

variable {State ε α : Type} (C : Interaction.Contract Call.Response State)

@[simp] theorem wp_sysCall (c : Call) (Q : Except ε c.Response → State → Prop) (s : State) :
    C.wp (sysCall c : ExceptT ε Native c.Response).run Q s ↔
      C.guarantee s c ∧ ∀ r, C.rely s c r → Q (.ok r) (C.next s c r) := by
  rw [sysCall, Interaction.Contract.wp_run_lift]
  rfl

@[simp] theorem wp_ofResult (result : Except ε α) (Q : Except ε α → State → Prop) (s : State) :
    C.wp (ofResult result : ExceptT ε Native α).run Q s ↔ Q result s := Iff.rfl

variable {β : Type} {trace : Trace} {final : Except ε β}

/-- A run that begins with a request records its response first. -/
theorem exec_sysCall_bind_iff {c : Call} {next : c.Response → ExceptT ε Native β} :
    (sysCall c >>= next).run.Exec trace final ↔
      ∃ response rest, trace = ⟨c, response⟩ :: rest ∧ (next response).run.Exec rest final := by
  rw [Interaction.Program.exec_run_bind_iff, sysCall]
  constructor
  · rintro (⟨error, run, rfl⟩ | ⟨first, rest, response, rfl, run, hNext⟩)
    · obtain ⟨response, -, h⟩ := Interaction.Program.exec_run_lift_iff.mp run
      cases h
    · obtain ⟨answer, hCall, h⟩ := Interaction.Program.exec_run_lift_iff.mp run
      cases h
      obtain ⟨answer, tail, rfl, hTail⟩ := Interaction.Program.exec_call_iff.mp hCall
      obtain ⟨rfl, rfl⟩ := Interaction.Program.exec_done_iff.mp hTail
      exact ⟨_, rest, rfl, hNext⟩
  · rintro ⟨response, rest, rfl, hNext⟩
    refine .inr ⟨[⟨c, response⟩], rest, response, rfl, ?_, hNext⟩
    exact Interaction.Program.exec_run_lift_iff.mpr ⟨response, .step (.refl _), rfl⟩

theorem exec_ofResult_iff {result : Except ε β} :
    (ofResult result : ExceptT ε Native β).run.Exec trace final ↔ trace = [] ∧ final = result :=
  Interaction.Program.exec_done_iff

theorem exec_ofResult_bind_iff {result : Except ε α} {next : α → ExceptT ε Native β} :
    (ofResult result >>= next).run.Exec trace final ↔
      (∃ error, result = .error error ∧ trace = [] ∧ final = .error error) ∨
      ∃ value, result = .ok value ∧ (next value).run.Exec trace final := by
  cases result with
  | ok value =>
      constructor
      · exact fun run => .inr ⟨value, rfl, run⟩
      · rintro (⟨error, h, -⟩ | ⟨value', h, run⟩)
        · cases h
        · cases h
          exact run
  | error error =>
      constructor
      · intro run
        obtain ⟨rfl, rfl⟩ := Interaction.Program.exec_done_iff.mp run
        exact .inl ⟨error, rfl, rfl, rfl⟩
      · rintro (⟨error', h, rfl, rfl⟩ | ⟨value, h, -⟩)
        · cases h
          exact .refl _
        · cases h

end Rules

def check (code : UInt32) : SysResult Unit :=
  if code = ERROR_SUCCESS then .ok () else .error (.os code)

end RestartManager
