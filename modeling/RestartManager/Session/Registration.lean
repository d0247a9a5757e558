import RestartManager.Session.Footprint

/-! Registration is all or nothing: a batch reaches Windows whole, in one native
call, or not at all. Every list is validated before that call is made. -/
namespace RestartManager

open Interaction Contract Program

variable [Platform]

/-! ### Refusals -/

/-- Why a file is refused, in the run that asked about it. -/
inductive FileRefused (trace : Trace) (file : PathBuf) : Prop
  | empty (h : file.units = [])
  | embeddedNul (h : 0 ∈ file.units)
  | notAbsolute {code : Option UInt32} (h : ⟨.pathAbsolute file, .error code⟩ ∈ trace)
  | directory {path : PathBuf} (absolute : ⟨.pathAbsolute file, .ok path⟩ ∈ trace)
      (is_dir : ⟨.pathIsDir path, true⟩ ∈ trace)

/-- Why a batch is refused: for one element, or for the length of a list. -/
inductive BatchRefused (trace : Trace) (batch : ResourceBatch) : Prop
  | file {file : PathBuf} (mem : file ∈ batch.files) (h : FileRefused trace file)
  | service {name : OsString} (mem : name ∈ batch.services) (h : name.units = [] ∨ 0 ∈ name.units)
  | files (h : 2 ^ 32 ≤ batch.files.length)
  | processes (h : 2 ^ 32 ≤ batch.processes.length)
  | services (h : 2 ^ 32 ≤ batch.services.length)

/-- Each file is well formed, was made absolute, and is no directory, in order. -/
inductive Resolves : List PathBuf → Trace → List PathBuf → Prop
  | nil : Resolves [] [] []
  | cons {file path : PathBuf} {files paths : List PathBuf} {trace : Trace}
      (valid : file.units ≠ [] ∧ 0 ∉ file.units) (rest : Resolves files trace paths) :
      Resolves (file :: files)
        (⟨.pathAbsolute file, .ok path⟩ :: ⟨.pathIsDir path, false⟩ :: trace) (path :: paths)

/-! ### The native call -/

/-- The three arrays of a native registration, with the counts passed for them. -/
structure Arrays where
  fileCount : UInt32
  files : List WideString
  processCount : UInt32
  processes : List RmUniqueProcess
  serviceCount : UInt32
  services : List WideString

namespace Arrays

def call (arrays : Arrays) (raw : UInt32) : Call :=
  .rmRegisterResources raw arrays.fileCount (pointerOrNull arrays.files)
    arrays.processCount (pointerOrNull arrays.processes)
    arrays.serviceCount (pointerOrNull arrays.services)

/-- The arrays are the images of the lists, element by element. -/
structure Images (arrays : Arrays) (paths : List PathBuf) (batch : ResourceBatch) : Prop where
  files : arrays.files = paths.map WideString.new
  processes : arrays.processes.map (fun process =>
      (process.dwProcessId, filetimeToU64 process.processStartTime)) =
    batch.processes.map fun process => (process.pid, process.creationTime100nsSince1601)
  services : arrays.services = batch.services.map WideString.new
  fileCount : arrays.fileCount.toNat = batch.files.length
  processCount : arrays.processCount.toNat = batch.processes.length
  serviceCount : arrays.serviceCount.toNat = batch.services.length

end Arrays

def Call.isRegistration : Call → Bool
  | .rmRegisterResources .. => true
  | _ => false

/-- The native registrations of a run. -/
def registrations (trace : Trace) : Trace := trace.filter fun event => event.1.isRegistration

/-- What a registration does with a batch, whatever it is answered. -/
structure AllOrNothing (raw : UInt32) (batch : ResourceBatch) (trace : Trace)
    (result : Except Error Unit) : Prop where
  none_iff : registrations trace = [] ↔ batch.isEmpty = true ∨ BatchRefused trace batch
  empty : batch.isEmpty = true → result = .ok ()
  refused : BatchRefused trace batch → ∃ error, result = .error error
  /-- One call for the whole batch, after the last look at a file. -/
  once : registrations trace ≠ [] → ∃ resolving paths, ∃ arrays : Arrays, ∃ code : UInt32,
    trace = resolving ++ [⟨arrays.call raw, code⟩] ∧ Resolves batch.files resolving paths ∧
    arrays.Images paths batch ∧ (result = .ok () ↔ code = ERROR_SUCCESS)

/-! ### Files -/

section

variable {file path : PathBuf} {files paths : List PathBuf} {trace later : Trace}

/-- A refusal stays one in a longer trace. -/
theorem FileRefused.append (h : FileRefused trace file) (first later : Trace) :
    FileRefused (first ++ trace ++ later) file := by
  have hMem {event : Event} (h : event ∈ trace) : event ∈ first ++ trace ++ later :=
    List.mem_append_left _ (List.mem_append_right _ h)
  cases h with
  | empty h => exact .empty h
  | embeddedNul h => exact .embeddedNul h
  | notAbsolute h => exact .notAbsolute (hMem h)
  | directory hAbsolute hDir => exact .directory (hMem hAbsolute) (hMem hDir)

namespace Resolves

/-- Each file has its own path. -/
theorem length_eq (h : Resolves files trace paths) : paths.length = files.length := by
  induction h with
  | nil => rfl
  | cons valid rest ih => rw [List.length_cons, List.length_cons, ih]

/-- A file that was resolved is not empty and has no NUL. -/
theorem valid (h : Resolves files trace paths) (hMem : file ∈ files) :
    file.units ≠ [] ∧ 0 ∉ file.units := by
  induction h with
  | nil => cases hMem
  | cons valid rest ih =>
      rcases List.mem_cons.mp hMem with rfl | hMem
      · exact valid
      · exact ih hMem

/-- No answer of such a run is a failure or a directory. -/
theorem event_eq (h : Resolves files trace paths) {event : Event} (hMem : event ∈ trace) :
    (∃ file path, event = ⟨.pathAbsolute file, .ok path⟩) ∨
      ∃ path, event = ⟨.pathIsDir path, false⟩ := by
  induction h with
  | nil => cases hMem
  | cons valid rest ih =>
      rcases List.mem_cons.mp hMem with rfl | hMem
      · exact .inl ⟨_, _, rfl⟩
      · rcases List.mem_cons.mp hMem with rfl | hMem
        · exact .inr ⟨_, rfl⟩
        · exact ih hMem

/-- Resolving the files registers nothing. -/
theorem registrations_eq (h : Resolves files trace paths) : registrations trace = [] := by
  apply List.filter_eq_nil_iff.mpr
  intro event hMem
  rcases h.event_eq hMem with ⟨file, path, rfl⟩ | ⟨path, rfl⟩ <;> simp [Call.isRegistration]

end Resolves

/-- A look at one file accepts it or refuses it, and registers nothing. -/
theorem exec_validateAndAbsoluteFile {result : Except Error PathBuf}
    (run : (validateAndAbsoluteFile file).run.Exec trace result) :
    (∃ path, result = .ok path ∧ (file.units ≠ [] ∧ 0 ∉ file.units) ∧
      trace = [⟨.pathAbsolute file, .ok path⟩, ⟨.pathIsDir path, false⟩]) ∨
    (∃ error, result = .error error) ∧ FileRefused trace file ∧ registrations trace = [] := by
  unfold validateAndAbsoluteFile absoluteUserPath at run
  rw [bind_assoc] at run
  rcases exec_ofResult_bind_iff.mp run with ⟨error, hInvalid, rfl, rfl⟩ | ⟨_, hValid, run⟩
  · refine .inr ⟨⟨error, rfl⟩, ?_, rfl⟩
    by_contra hRefused
    have hOk : validateUserOsValue file "a file path" = .ok () :=
      validateOsValue_eq_ok.mpr ⟨fun h => hRefused (.empty h), fun h => hRefused (.embeddedNul h)⟩
    rw [hOk] at hInvalid
    cases hInvalid
  rw [bind_assoc] at run
  obtain ⟨absolute, asked, rfl, run'⟩ := exec_sysCall_bind_iff.mp run
  cases absolute with
  | error code =>
      obtain ⟨rfl, rfl⟩ := exec_done_iff.mp run'
      exact .inr ⟨⟨_, rfl⟩, .notAbsolute (List.mem_singleton_self _), rfl⟩
  | ok path =>
      obtain ⟨isDir, answered, rfl, last⟩ := exec_sysCall_bind_iff.mp run'
      cases isDir with
      | true =>
          obtain ⟨rfl, rfl⟩ := exec_done_iff.mp last
          exact .inr ⟨⟨_, rfl⟩, .directory List.mem_cons_self (by simp), rfl⟩
      | false =>
          obtain ⟨rfl, rfl⟩ := exec_done_iff.mp last
          exact .inl ⟨path, rfl, validateOsValue_eq_ok.mp hValid, rfl⟩

/-- The files are looked at in order, up to the first that is refused. -/
theorem exec_mapM_files {result : Except Error (List PathBuf)}
    (run : (files.mapM validateAndAbsoluteFile).run.Exec trace result) :
    (∃ paths, result = .ok paths ∧ Resolves files trace paths) ∨
    (∃ error, result = .error error) ∧ (∃ file ∈ files, FileRefused trace file) ∧
      registrations trace = [] := by
  induction files generalizing trace result with
  | nil =>
      obtain ⟨rfl, rfl⟩ := exec_done_iff.mp run
      exact .inl ⟨[], rfl, .nil⟩
  | cons file files ih =>
      rw [List.mapM_cons] at run
      rcases exec_run_bind_iff.mp run with ⟨error, first, rfl⟩ | ⟨first, rest, path, rfl, head, tail⟩
      · refine .inr ⟨⟨error, rfl⟩, ?_⟩
        rcases exec_validateAndAbsoluteFile first with ⟨path, h, -⟩ | ⟨-, hRefused, hNone⟩
        · cases h
        · exact ⟨⟨file, List.mem_cons_self, hRefused⟩, hNone⟩
      rcases exec_validateAndAbsoluteFile head with ⟨_, h, hValid, rfl⟩ | ⟨⟨_, h⟩, -⟩
      · cases h
        have hRest := exec_run_bind_iff.mp tail
        rcases hRest with ⟨error, rest', rfl⟩ | ⟨middle, last, paths, rfl, rest', final⟩
        · rcases ih rest' with ⟨_, h, -⟩ | ⟨-, ⟨refused, hMem, hRefused⟩, hNone⟩
          · cases h
          refine .inr ⟨⟨error, rfl⟩, ⟨refused, List.mem_cons_of_mem _ hMem, ?_⟩, hNone⟩
          simpa using hRefused.append [⟨.pathAbsolute file, .ok path⟩, ⟨.pathIsDir path, false⟩] []
        · rcases ih rest' with ⟨_, h, hResolves⟩ | ⟨⟨_, h⟩, -⟩
          · cases h
            obtain ⟨rfl, rfl⟩ := exec_done_iff.mp final
            rw [List.append_nil]
            exact .inl ⟨path :: paths, rfl, .cons hValid hResolves⟩
          · cases h
      · cases h

/-! ### Services and counts -/

/-- The names of services are validated without a call. -/
theorem exec_mapM_services {services : List OsString} {result : Except Error (List OsString)}
    (run : (services.mapM fun name => do
      ofResult (validateUserOsValue name "a service short name")
      return name : CrateM (List OsString)).run.Exec trace result) :
    trace = [] ∧ ((result = .ok services ∧ ∀ name ∈ services, name.units ≠ [] ∧ 0 ∉ name.units) ∨
      (∃ error, result = .error error) ∧
        ∃ name ∈ services, name.units = [] ∨ 0 ∈ name.units) := by
  induction services generalizing trace result with
  | nil =>
      obtain ⟨rfl, rfl⟩ := exec_done_iff.mp run
      exact ⟨rfl, .inl ⟨rfl, fun name hMem => absurd hMem List.not_mem_nil⟩⟩
  | cons name services ih =>
      rw [List.mapM_cons, bind_assoc] at run
      rcases exec_ofResult_bind_iff.mp run with ⟨error, hInvalid, rfl, rfl⟩ | ⟨_, hValid, run'⟩
      · refine ⟨rfl, .inr ⟨⟨error, rfl⟩, name, List.mem_cons_self, ?_⟩⟩
        by_contra hRefused
        have hOk : validateUserOsValue name "a service short name" = .ok () :=
          validateOsValue_eq_ok.mpr (not_or.mp hRefused)
        rw [hOk] at hInvalid
        cases hInvalid
      have hName : name.units ≠ [] ∧ 0 ∉ name.units := validateOsValue_eq_ok.mp hValid
      rw [pure_bind] at run'
      rcases exec_run_bind_iff.mp run' with ⟨error, rest, rfl⟩ | ⟨first, last, names, rfl, rest, final⟩
      · obtain ⟨hTrace, ⟨h, -⟩ | ⟨-, refused, hMem, hRefused⟩⟩ := ih rest
        · cases h
        · exact ⟨hTrace, .inr ⟨⟨error, rfl⟩, refused, List.mem_cons_of_mem _ hMem, hRefused⟩⟩
      · obtain ⟨rfl, ⟨h, hServices⟩ | ⟨⟨_, h⟩, -⟩⟩ := ih rest
        · cases h
          obtain ⟨rfl, rfl⟩ := exec_done_iff.mp final
          refine ⟨rfl, .inl ⟨rfl, fun name' hMem => ?_⟩⟩
          rcases List.mem_cons.mp hMem with rfl | hMem
          · exact hName
          · exact hServices name' hMem
        · cases h

omit [Platform] in
/-- A length that fits in the argument is passed as it is. -/
theorem count_eq_ok {length : Nat} {value : UInt32} (h : count length = .ok value) :
    length < 2 ^ 32 ∧ value.toNat = length := by
  unfold count at h
  split at h
  · cases h
    refine ⟨‹_›, ?_⟩
    rw [UInt32.toNat_ofNat']
    exact Nat.mod_eq_of_lt ‹_›
  · cases h

omit [Platform] in
/-- A length that does not fit in the argument is refused. -/
theorem count_eq_error {length : Nat} {error : SysError} (h : count length = .error error) :
    2 ^ 32 ≤ length := by
  unfold count at h
  split at h
  · cases h
  · exact Nat.le_of_not_lt ‹_›

/-- The lists that fit their counts go into one call. -/
theorem exec_handle_registerResources {handle : SessionHandle} {processes : List ProcessIdentity}
    {services : List OsString} {result : SysResult Unit}
    (run : (handle.registerResources paths (processes.map rawProcess) services).run.Exec trace result) :
    ((∃ error, result = .error error) ∧ trace = [] ∧
      (2 ^ 32 ≤ paths.length ∨ 2 ^ 32 ≤ processes.length ∨ 2 ^ 32 ≤ services.length)) ∨
    (paths.length < 2 ^ 32 ∧ processes.length < 2 ^ 32 ∧ services.length < 2 ^ 32) ∧
      ∃ arrays : Arrays, ∃ code : UInt32, trace = [⟨arrays.call handle.raw, code⟩] ∧
        arrays.files = paths.map WideString.new ∧
        arrays.processes = (processes.map rawProcess).map nativeUniqueProcess ∧
        arrays.services = services.map WideString.new ∧
        arrays.fileCount.toNat = paths.length ∧ arrays.processCount.toNat = processes.length ∧
        arrays.serviceCount.toNat = services.length ∧ result = check code := by
  unfold SessionHandle.registerResources at run
  rcases exec_ofResult_bind_iff.mp run with ⟨error, hError, rfl, rfl⟩ | ⟨fileCount, hFile, run⟩
  · exact .inl ⟨⟨error, rfl⟩, rfl, .inl (count_eq_error hError)⟩
  rcases exec_ofResult_bind_iff.mp run with ⟨error, hError, rfl, rfl⟩ | ⟨processCount, hProcess, run⟩
  · rw [List.length_map] at hError
    exact .inl ⟨⟨error, rfl⟩, rfl, .inr (.inl (count_eq_error hError))⟩
  rw [List.length_map] at hProcess
  rcases exec_ofResult_bind_iff.mp run with ⟨error, hError, rfl, rfl⟩ | ⟨serviceCount, hService, run⟩
  · exact .inl ⟨⟨error, rfl⟩, rfl, .inr (.inr (count_eq_error hError))⟩
  obtain ⟨code, rest, rfl, last⟩ := exec_sysCall_bind_iff.mp run
  obtain ⟨rfl, rfl⟩ := exec_ofResult_iff.mp last
  obtain ⟨hFileLength, hFileCount⟩ := count_eq_ok hFile
  obtain ⟨hProcessLength, hProcessCount⟩ := count_eq_ok hProcess
  obtain ⟨hServiceLength, hServiceCount⟩ := count_eq_ok hService
  refine .inr ⟨⟨hFileLength, hProcessLength, hServiceLength⟩, ?_⟩
  exact ⟨⟨fileCount, _, processCount, _, serviceCount, _⟩, code, rfl, rfl, rfl, rfl, hFileCount,
    hProcessCount, hServiceCount, rfl⟩

/-! ### Batches -/

variable {core : SessionCore} {batch : ResourceBatch} {result : Except Error Unit}

/-- The mapping of errors changes nothing but the error. -/
theorem exec_mapErr_iff {α : Type} {method : SysM α} {f : SysError → Error}
    {final : Except Error α} :
    (mapErr method f).run.Exec trace final ↔
      ∃ result, method.run.Exec trace result ∧ final = result.mapError f :=
  exec_map_iff

/-- An empty batch has nothing to refuse. -/
theorem not_refused_of_isEmpty (hEmpty : batch.isEmpty = true) : ¬BatchRefused trace batch := by
  obtain ⟨files, processes, services⟩ := batch
  simp only [ResourceBatch.isEmpty, Bool.and_eq_true, List.isEmpty_iff] at hEmpty
  obtain ⟨⟨rfl, rfl⟩, rfl⟩ := hEmpty
  intro hRefused
  cases hRefused with
  | file hMem => cases hMem
  | service hMem => cases hMem
  | files h => exact absurd h (by decide)
  | processes h => exact absurd h (by decide)
  | services h => exact absurd h (by decide)

/-- A run that registers every file of a batch was refused none of it. -/
theorem Resolves.not_refused {call : Event} (h : Resolves batch.files trace paths)
    (hCall : call.1.isRegistration = true)
    (hServices : ∀ name ∈ batch.services, name.units ≠ [] ∧ 0 ∉ name.units)
    (hLengths : batch.files.length < 2 ^ 32 ∧ batch.processes.length < 2 ^ 32 ∧
      batch.services.length < 2 ^ 32) : ¬BatchRefused (trace ++ [call]) batch := by
  have hAnswer {event : Event} (hMem : event ∈ trace ++ [call]) :
      event.1.isRegistration = true ∨ (∃ file path, event = ⟨.pathAbsolute file, .ok path⟩) ∨
        ∃ path, event = ⟨.pathIsDir path, false⟩ := by
    rcases List.mem_append.mp hMem with hMem | hMem
    · exact .inr (h.event_eq hMem)
    · obtain rfl := List.mem_singleton.mp hMem
      exact .inl hCall
  intro hRefused
  cases hRefused with
  | @file file hMem hFile =>
      cases hFile with
      | empty hUnits => exact (h.valid hMem).1 hUnits
      | embeddedNul hUnits => exact (h.valid hMem).2 hUnits
      | notAbsolute hEvent =>
          rcases hAnswer hEvent with h | ⟨_, _, h⟩ | ⟨_, h⟩ <;> cases h
      | directory _ hEvent =>
          rcases hAnswer hEvent with h | ⟨_, _, h⟩ | ⟨_, h⟩ <;> cases h
  | @service name hMem hName =>
      obtain ⟨hNonempty, hNul⟩ := hServices name hMem
      exact hName.elim hNonempty hNul
  | files hLength => omega
  | processes hLength => omega
  | services hLength => omega

namespace AllOrNothing

variable {raw : UInt32}

/-- A batch with a refused member registers nothing. -/
theorem of_refused (hEmpty : batch.isEmpty = false) (hError : ∃ error, result = .error error)
    (hRefused : BatchRefused trace batch) (hNone : registrations trace = []) :
    AllOrNothing raw batch trace result where
  none_iff := ⟨fun _ => .inr hRefused, fun _ => hNone⟩
  empty h := absurd (hEmpty.symm.trans h) Bool.false_ne_true
  refused _ := hError
  once h := absurd hNone h

/-- A batch without one makes the one call, with an image of each member. -/
theorem of_call {arrays : Arrays} {code : UInt32} (hEmpty : batch.isEmpty = false)
    (hResolves : Resolves batch.files trace paths) (hImages : arrays.Images paths batch)
    (hRefused : ¬BatchRefused (trace ++ [⟨arrays.call raw, code⟩]) batch)
    (hResult : result = .ok () ↔ code = ERROR_SUCCESS) :
    AllOrNothing raw batch (trace ++ [⟨arrays.call raw, code⟩]) result where
  none_iff := by
    have hOne : registrations (trace ++ [⟨arrays.call raw, code⟩]) ≠ [] := by
      rw [registrations, List.filter_append]
      exact List.append_ne_nil_of_right_ne_nil _ (List.cons_ne_nil _ _)
    constructor
    · exact fun h => absurd h hOne
    · rintro (h | h)
      · exact absurd (hEmpty.symm.trans h) Bool.false_ne_true
      · exact absurd h hRefused
  empty h := absurd (hEmpty.symm.trans h) Bool.false_ne_true
  refused h := absurd h hRefused
  once _ := ⟨trace, paths, arrays, code, rfl, hResolves, hImages, hResult⟩

end AllOrNothing

omit [Platform] in
theorem mapError_check_eq_ok {f : SysError → Error} {code : UInt32} :
    (check code).mapError f = .ok () ↔ code = ERROR_SUCCESS := by
  unfold check
  split <;> simp [*, Except.mapError]

omit [Platform] in
/-- The three arrays are images of the three lists. -/
theorem images_of_lists {arrays : Arrays} (hLength : paths.length = batch.files.length)
    (hFiles : arrays.files = paths.map WideString.new)
    (hProcesses : arrays.processes = (batch.processes.map rawProcess).map nativeUniqueProcess)
    (hServices : arrays.services = batch.services.map WideString.new)
    (hFileCount : arrays.fileCount.toNat = paths.length)
    (hProcessCount : arrays.processCount.toNat = batch.processes.length)
    (hServiceCount : arrays.serviceCount.toNat = batch.services.length) :
    arrays.Images paths batch where
  files := hFiles
  processes := by
    rw [hProcesses, List.map_map, List.map_map]
    apply List.map_congr_left
    intro process _
    simp [nativeUniqueProcess, rawProcess, filetimeToU64_u64ToFiletime]
  services := hServices
  fileCount := hFileCount.trans hLength
  processCount := hProcessCount
  serviceCount := hServiceCount

/-- A registration makes one call with the whole batch, or none. -/
theorem SessionCore.registers_all_or_nothing
    (run : (core.registerResources batch).run.Exec trace result) :
    AllOrNothing core.handle.raw batch trace result := by
  unfold SessionCore.registerResources at run
  cases hEmpty : batch.isEmpty with
  | true =>
      rw [if_pos hEmpty] at run
      obtain ⟨rfl, rfl⟩ := exec_done_iff.mp run
      exact {
        none_iff := ⟨fun _ => .inl hEmpty, fun _ => rfl⟩
        empty := fun _ => rfl
        refused := fun h => absurd h (not_refused_of_isEmpty hEmpty)
        once := fun h => absurd rfl h }
  | false =>
      rw [if_neg (by rw [hEmpty]; exact Bool.false_ne_true)] at run
      rcases exec_run_bind_iff.mp run with ⟨error, hFiles, rfl⟩ | ⟨looked, rest, paths, rfl, hFiles, run⟩
      · rcases exec_mapM_files hFiles with ⟨_, h, -⟩ | ⟨-, ⟨file, hMem, hRefused⟩, hNone⟩
        · cases h
        · exact .of_refused hEmpty ⟨error, rfl⟩ (.file hMem hRefused) hNone
      rcases exec_mapM_files hFiles with ⟨_, h, hResolves⟩ | ⟨⟨_, h⟩, -⟩
      case inr => cases h
      cases h
      rcases exec_run_bind_iff.mp run with ⟨error, hNames, rfl⟩ | ⟨first, rest', names, rfl, hNames, run⟩
      · obtain ⟨rfl, ⟨h, -⟩ | ⟨-, name, hMem, hRefused⟩⟩ := exec_mapM_services hNames
        · cases h
        · rw [List.append_nil]
          exact .of_refused hEmpty ⟨error, rfl⟩ (.service hMem hRefused) hResolves.registrations_eq
      obtain ⟨rfl, ⟨h, hServices⟩ | ⟨⟨_, h⟩, -⟩⟩ := exec_mapM_services hNames
      case inr => cases h
      cases h
      obtain ⟨final, hCall, rfl⟩ := exec_mapErr_iff.mp run
      rw [List.nil_append]
      have hLength := hResolves.length_eq
      rcases exec_handle_registerResources hCall with ⟨⟨error, rfl⟩, rfl, hLong⟩ | ⟨hShort, arrays, code,
        rfl, hPaths, hProcesses, hNames, hFileCount, hProcessCount, hServiceCount, rfl⟩
      · rw [List.append_nil]
        refine .of_refused hEmpty ⟨_, rfl⟩ ?_ hResolves.registrations_eq
        rw [hLength] at hLong
        rcases hLong with hLong | hLong | hLong
        · exact .files hLong
        · exact .processes hLong
        · exact .services hLong
      · rw [hLength] at hShort
        exact .of_call hEmpty hResolves
          (images_of_lists hLength hPaths hProcesses hNames hFileCount hProcessCount hServiceCount)
          (hResolves.not_refused rfl hServices hShort) mapError_check_eq_ok

end

end RestartManager
