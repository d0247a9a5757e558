import RestartManager.Session.Raw
import RestartManager.Sys.FilterLayout

/-! A filter that was set is listed again as it was set. The encoder and the
decoder meet only in the buffer that Windows lays out. -/
namespace RestartManager

variable [Platform]

/-- The targets a caller can build: each comes from a public constructor. The
standard library keeps its promise on the path of an executable. -/
inductive FilterTarget.Built : FilterTarget → Prop
  | executable {path : PathBuf} {trace : Trace} {target : FilterTarget}
      (run : (FilterTarget.executable path).run.Exec trace (.ok target))
      (std : AbsolutePathsAreAbsolute trace) : Built target
  | process (process : ProcessIdentity) : Built (.process process)
  | service {name : OsString} {target : FilterTarget} (h : FilterTarget.service name = .ok target) :
      Built target

/-- What `set_filter` passes to the adapter for one filter. -/
def encodeFilter (filter : Filter) : Except Payload RawFilter := do
  let target ← rawFilterTarget filter.target
  return { target, action := rawFilterAction filter.action }

/-- Built strings are non-empty and free of NUL, and built paths absolute. -/
theorem FilterTarget.Built.valid {target : FilterTarget} (h : target.Built) :
    match target.kind with
    | .executable path => IsAbsolutePath path
    | .process _ => True
    | .service name => name.units ≠ [] ∧ 0 ∉ name.units := by
  cases h with
  | @executable path trace target run std =>
      have hPath : pathContract.wp (FilterTarget.executable path).run
          (fun result _ => ∀ target, result = .ok target →
            ∃ absolute, target = ⟨.executable absolute⟩ ∧ IsAbsolutePath absolute) () := by
        rw [FilterTarget.executable, Interaction.Contract.wp_run_bind]
        refine Interaction.Contract.wp_mono _ (wp_absoluteUserPath _ _) ?_
        rintro (error | absolute) _ hAbsolute
        · exact nofun
        · rintro _ ⟨⟩
          exact ⟨absolute, rfl, hAbsolute absolute rfl⟩
      obtain ⟨-, hResult⟩ := Interaction.Contract.wp_exec _ run hPath (pathContract_conforms std)
      obtain ⟨absolute, rfl, hAbsolute⟩ := hResult target rfl
      exact hAbsolute
  | process process => trivial
  | @service name target h =>
      obtain ⟨hValid, rfl⟩ := validated_eq_ok.mp h
      exact validateOsValue_eq_ok.mp hValid

theorem encodeFilter_nulFree {filter : Filter} {raw : RawFilter} (h : filter.target.Built)
    (hEncode : encodeFilter filter = .ok raw) : raw.target.NulFree := by
  have hValid := h.valid
  obtain ⟨⟨kind⟩, action⟩ := filter
  rw [encodeFilter, rawFilterTarget_eq_ok] at hEncode
  simp only [bind, Except.bind, pure, Except.pure, Except.ok.injEq] at hEncode
  subst hEncode
  cases kind with
  | executable path => exact hValid.2.2
  | process process => trivial
  | service name => exact hValid.2

/-- Decoding undoes encoding on every filter a caller can build. -/
theorem filterFromRaw_encodeFilter {filter : Filter} {raw : RawFilter} (h : filter.target.Built)
    (hEncode : encodeFilter filter = .ok raw) : filterFromRaw raw = .ok filter := by
  have hValid := h.valid
  obtain ⟨⟨kind⟩, action⟩ := filter
  rw [encodeFilter, rawFilterTarget_eq_ok] at hEncode
  simp only [bind, Except.bind, pure, Except.pure, Except.ok.injEq] at hEncode
  subst hEncode
  cases kind with
  | executable path =>
      have hPath : validateAbsoluteOsPath path "executable filter path" = .ok () :=
        validateAbsoluteOsPath_eq_ok.mpr ⟨hValid.2.1, hValid.2.2, hValid.1⟩
      cases action <;> simp [filterFromRaw, FilterTarget.fromRawExecutable, rawFilterAction, hPath,
        bind, Except.bind, pure, Except.pure]
  | process process =>
      have hPid : ¬(process.pid = 0 ∨ process.pid = INVALID_NATIVE_ID) :=
        not_or.mpr ⟨process.pid_ne_zero, process.pid_ne_invalid⟩
      cases action <;> simp [filterFromRaw, rawProcess, processFromRaw, FilterTarget.fromRawProcess,
        FilterTarget.process, rawFilterAction, hPid, bind, Except.bind, pure, Except.pure]
  | service name =>
      have hName : validateOsOutput name "service filter name" = .ok () :=
        validateOsValue_eq_ok.mpr hValid
      cases action <;> simp [filterFromRaw, FilterTarget.fromRawService, rawFilterAction, hName,
        bind, Except.bind, pure, Except.pure]

/-- Filters laid out in order in the first `byteLen` bytes. -/
def StoresFilters (buffer : AlignedBuffer) (byteLen : Nat) (filters : List RawFilter) : Prop :=
  (byteLen = 0 ∧ filters = []) ∨ (byteLen ≠ 0 ∧ StoresChain buffer byteLen 0 filters)

/-- Encoding a list of built filters never fails, and decoding every entry
gives the list back. -/
theorem mapM_encodeFilter {filters : List Filter} (hBuilt : ∀ filter ∈ filters, filter.target.Built) :
    ∃ raws, filters.mapM encodeFilter = .ok raws ∧ raws.mapM filterFromRaw = .ok filters ∧
      ∀ raw ∈ raws, raw.target.NulFree := by
  induction filters with
  | nil => exact ⟨[], rfl, rfl, nofun⟩
  | cons filter filters ih =>
      obtain ⟨raws, hRaws, hFilters, hNul⟩ := ih fun f hf => hBuilt f (List.mem_cons_of_mem _ hf)
      have hFilter := hBuilt filter List.mem_cons_self
      obtain ⟨raw, hRaw⟩ : ∃ raw, encodeFilter filter = .ok raw := by
        rw [encodeFilter, rawFilterTarget_eq_ok]
        exact ⟨_, rfl⟩
      refine ⟨raw :: raws, ?_, ?_, ?_⟩
      · simp [List.mapM_cons, hRaw, hRaws, bind, Except.bind, pure, Except.pure]
      · simp [List.mapM_cons, filterFromRaw_encodeFilter hFilter hRaw, hFilters, bind, Except.bind,
          pure, Except.pure]
      · rintro f (_ | ⟨_, hf⟩)
        · exact encodeFilter_nulFree hFilter hRaw
        · exact hNul f hf

/-- Whatever list a caller builds, and wherever Windows puts it, parsing and
decoding the buffer returns that list. -/
theorem filters_roundTrip {filters : List Filter}
    (hBuilt : ∀ filter ∈ filters, filter.target.Built) :
    ∃ raws, filters.mapM encodeFilter = .ok raws ∧
      ∀ {buffer : AlignedBuffer} {byteLen : Nat} {trace : Trace} {result : SysResult (List RawFilter)},
        byteLen ≤ buffer.byteCapacity → StoresFilters buffer byteLen raws →
        (parseFilterBuffer buffer byteLen).run.Exec trace result → ReservationsSucceed trace →
        ∃ parsed, result = .ok parsed ∧ parsed.mapM filterFromRaw = .ok filters := by
  obtain ⟨raws, hRaws, hFilters, hNul⟩ := mapM_encodeFilter hBuilt
  refine ⟨raws, hRaws, fun {buffer byteLen trace result} hLen hStored run hAlloc => ?_⟩
  have hHolds : HoldsFilters buffer byteLen raws := by
    rcases hStored with hEmpty | ⟨hNe, chain⟩
    · exact .inl hEmpty
    · exact .inr ⟨hNe, chain.filterChain hLen hNul⟩
  obtain ⟨-, hResult⟩ := Interaction.Contract.wp_exec _ run (wp_parseFilterBuffer hLen)
    (bufferContract_conforms hAlloc)
  cases hResult with
  | holds h => exact ⟨_, rfl, h.unique hHolds ▸ hFilters⟩
  | malformed hNone => exact absurd hHolds (hNone raws)
  | allocation h => exact h.elim

def linkedService : FilterTarget := ⟨.service ⟨[0x73]⟩⟩

def linkedProcess : FilterTarget := .process ⟨7, 5, by decide, by decide⟩

theorem linkedService_built : linkedService.Built :=
  .service (show FilterTarget.service ⟨[0x73]⟩ = .ok linkedService from rfl)

theorem linkedProcess_built : linkedProcess.Built := .process _

/-- A service that may not be shut down, and a process that may not be
restarted. -/
def linkedTargets : List Filter := [⟨linkedService, .preventShutdown⟩, ⟨linkedProcess, .preventRestart⟩]

theorem linkedTargets_built : ∀ filter ∈ linkedTargets, filter.target.Built := by
  rintro _ (_ | ⟨_, _ | ⟨_, ⟨⟩⟩⟩)
  · exact linkedService_built
  · exact linkedProcess_built

omit [Platform] in
/-- A service and a process, in two linked records. -/
theorem filters_roundTrip_linked :
    List.mapM (@filterFromRaw Platform.driveLetters) linkedFilters = .ok linkedTargets := by
  let _ := Platform.driveLetters
  obtain ⟨raws, hRaws, hTrip⟩ := filters_roundTrip linkedTargets_built
  obtain rfl : raws = linkedFilters := (Except.ok.inj hRaws).symm
  have hStored : StoresFilters linkedFilterBuffer 69 linkedFilters :=
    .inr ⟨by decide, storesChain_linkedBytes rfl⟩
  obtain ⟨_, ⟨⟩, hParsed⟩ := hTrip (by decide) hStored exec_linkedFilterBuffer
    (by simp [ReservationsSucceed, linkedReads])
  exact hParsed

end RestartManager
