import Mathlib.Data.List.Nodup
import Mathlib.Data.Set.List
import RestartManager.Session.ErrorCodes
import RestartManager.Session.FilterRoundTrip
import RestartManager.Sys.FilterStore

/-! The filters of a session as a table from targets to actions: the public
operations on it refine the table, whatever store Windows keeps it in. -/
namespace RestartManager

open Interaction Contract Program Transition

/-! ### The table -/

/-- What a session filters, as its owner sees it. -/
abbrev FilterTable := FilterTarget → Option FilterAction

/-- The filters of the table in some order, each once. -/
structure FilterTable.Lists (table : FilterTable) (filters : List Filter) : Prop where
  mem_iff : ∀ filter, filter ∈ filters ↔ table filter.target = some filter.action
  nodup : (filters.map Filter.target).Nodup

def filterNotFound : Error :=
  .new .filterNotFound (some ERROR_FILE_NOT_FOUND) "the selected Restart Manager filter does not exist"

/-! ### Its representation -/

/-- Two processes with one native form are one. -/
theorem rawProcess_injective : Function.Injective rawProcess := by
  intro process process' h
  obtain ⟨hPid, hTime⟩ := RawUniqueProcess.mk.inj h
  cases process
  cases process'
  cases hPid
  cases hTime
  rfl

namespace FilterTarget

/-- What `raw_filter_target` returns. -/
def raw (target : FilterTarget) : RawFilterTarget :=
  match target.kind with
  | .executable path => .executable path
  | .process process => .process (rawProcess process)
  | .service name => .service name

/-- Every target has a native form. -/
theorem rawFilterTarget_eq (target : FilterTarget) : rawFilterTarget target = .ok target.raw :=
  rawFilterTarget_eq_ok target

/-- What Windows knows the target by. -/
def pointers (target : FilterTarget) : FilterPointers := .new target.raw

/-- Two targets with one native form are one. -/
theorem raw_injective : Function.Injective raw := by
  intro target target' h
  obtain ⟨kind⟩ := target
  obtain ⟨kind'⟩ := target'
  cases kind <;> cases kind' <;> simp only [raw, reduceCtorEq, RawFilterTarget.executable.injEq,
    RawFilterTarget.process.injEq, RawFilterTarget.service.injEq] at h
  · rw [h]
  · rw [rawProcess_injective h]
  · rw [h]

/-- Two targets whose native pointers agree are one, so the tables can be compared. -/
theorem pointers_injective : Function.Injective pointers :=
  FilterPointers.new_injective.comp raw_injective

end FilterTarget

theorem rawFilterAction_injective : Function.Injective rawFilterAction := by
  intro action action' h
  cases action <;> cases action' <;> first | rfl | exact absurd h (by decide)

/-- What `set_filter` passes to Windows for a filter. -/
def Filter.raw (filter : Filter) : RawFilter := ⟨filter.target.raw, rawFilterAction filter.action⟩

theorem encodeFilter_eq (filter : Filter) : encodeFilter filter = .ok filter.raw := by
  rw [encodeFilter, FilterTarget.rawFilterTarget_eq]
  rfl

theorem Filter.raw_injective : Function.Injective Filter.raw := by
  intro filter filter' h
  obtain ⟨hTarget, hAction⟩ := RawFilter.mk.inj h
  obtain ⟨target, action⟩ := filter
  obtain ⟨target', action'⟩ := filter'
  obtain rfl := FilterTarget.raw_injective hTarget
  obtain rfl := rawFilterAction_injective hAction
  rfl

section

variable [Platform]

/-- A call of the run that was made for the operation returned this code. -/
def Returned (operation : Operation) (trace : Trace) (code : UInt32) : Prop :=
  ∃ event ∈ trace, event.1.operation? = some operation ∧ code? event = some code

/-- What an operation does to the table, and returns. One that fails changes
nothing, and has the code of its own call. -/
inductive FilterStep : FilterTable → Performance → FilterTable → Prop
  | set {table : FilterTable} {target : FilterTarget} {action : FilterAction} {trace : Trace} :
      FilterStep table ⟨.setFilter target action, trace, .done (.ok ())⟩
        (Function.update table target (some action))
  /-- Windows did not accept the filter. -/
  | refused {table : FilterTable} {target : FilterTarget} {action : FilterAction} {trace : Trace}
      {code : UInt32} (failed : code ≠ ERROR_SUCCESS) (returned : Returned .setFilter trace code) :
      FilterStep table
        ⟨.setFilter target action, trace, .done (.error (mapOperationError (.os code) .setFilter))⟩ table
  | removed {table : FilterTable} {target : FilterTarget} {trace : Trace} (kept : table target ≠ none) :
      FilterStep table ⟨.removeFilter target, trace, .done (.ok ())⟩ (Function.update table target none)
  | missing {table : FilterTable} {target : FilterTarget} {trace : Trace} (absent : table target = none)
      (returned : Returned .removeFilter trace ERROR_FILE_NOT_FOUND) :
      FilterStep table ⟨.removeFilter target, trace, .done (.error filterNotFound)⟩ table
  /-- Windows did not remove the filter, and does not say that it is missing. -/
  | retained {table : FilterTable} {target : FilterTarget} {trace : Trace} {code : UInt32}
      (failed : code ≠ ERROR_SUCCESS) (found : code ≠ ERROR_FILE_NOT_FOUND)
      (returned : Returned .removeFilter trace code) :
      FilterStep table
        ⟨.removeFilter target, trace, .done (.error (mapOperationError (.os code) .removeFilter))⟩ table
  | listed {table : FilterTable} {filters : List Filter} {trace : Trace} (lists : table.Lists filters) :
      FilterStep table ⟨.filters, trace, .filters (.ok filters)⟩ table
  /-- Windows did not list the filters. -/
  | unlisted {table : FilterTable} {trace : Trace} {code : UInt32}
      (failed : FilterStore.ListingFailure code) (returned : Returned .filters trace code) :
      FilterStep table
        ⟨.filters, trace, .filters (.error (mapOperationError (.os code) .filters))⟩ table
  | other {table : FilterTable} {performance : Performance} (target : performance.op.target? = none)
      (filters : performance.op ≠ .filters) : FilterStep table performance table

/-- The native table holds the filters of the table and no others, and each
target is one that a caller can build. -/
structure FilterTable.Represents (table : FilterTable) (native : NativeTable) : Prop where
  entries : ∀ pointers action, native pointers = some action ↔
    ∃ target a, table target = some a ∧ pointers = target.pointers ∧ action = rawFilterAction a
  built : ∀ target, table target ≠ none → target.Built

namespace FilterTable.Represents

variable {table : FilterTable} {native : NativeTable} {target : FilterTarget}

/-- A session starts with no filters on either side. -/
theorem empty : FilterTable.Represents (fun _ => none) fun _ => none :=
  ⟨by simp, fun _ h => absurd rfl h⟩

/-- A target is missing from the table where its pointers are missing from the native one. -/
theorem eq_none_iff (h : table.Represents native) : native target.pointers = none ↔ table target = none := by
  rw [Option.eq_none_iff_forall_ne_some, Option.eq_none_iff_forall_ne_some]
  constructor
  · intro hNative a ha
    exact hNative _ ((h.entries _ _).mpr ⟨target, a, ha, rfl, rfl⟩)
  · intro hTable action hAction
    obtain ⟨target', a, ha, hPointers, -⟩ := (h.entries _ _).mp hAction
    rw [← FilterTarget.pointers_injective hPointers] at ha
    exact hTable a ha

/-- One target is changed in both tables. -/
theorem update (h : table.Represents native) (hBuilt : target.Built) (action : Option FilterAction) :
    FilterTable.Represents (Function.update table target action)
      (Function.update native target.pointers (action.map rawFilterAction)) := by
  constructor
  · intro pointers value
    by_cases hPointers : pointers = target.pointers
    · subst hPointers
      rw [Function.update_self, Option.map_eq_some_iff]
      constructor
      · rintro ⟨a, rfl, rfl⟩
        exact ⟨target, a, Function.update_self .., rfl, rfl⟩
      · rintro ⟨target', a, ha, hSame, rfl⟩
        rw [← FilterTarget.pointers_injective hSame, Function.update_self] at ha
        exact ⟨a, ha, rfl⟩
    · rw [Function.update_of_ne hPointers, h.entries]
      apply exists_congr
      intro target'
      apply exists_congr
      intro a
      by_cases hTarget : target' = target
      · subst hTarget
        simp [hPointers]
      · rw [Function.update_of_ne hTarget]
  · intro target' hKept
    by_cases hTarget : target' = target
    · rw [hTarget]
      exact hBuilt
    · rw [Function.update_of_ne hTarget] at hKept
      exact h.built target' hKept

/-- The list of a native table is the encoded list of the table. -/
theorem lists (h : table.Represents native) {raws : List RawFilter}
    (hMem : ∀ raw, raw ∈ raws ↔ native (.new raw.target) = some raw.action)
    (hNodup : (raws.map RawFilter.target).Nodup) :
    (∀ raw ∈ raws, raw.target.NulFree) ∧
      ∃ filters, raws.mapM filterFromRaw = .ok filters ∧ table.Lists filters := by
  have hRange : ∀ raw ∈ raws, raw ∈ Set.range Filter.raw := by
    intro raw hRaw
    obtain ⟨target, action, -, hPointers, hAction⟩ := (h.entries _ _).mp ((hMem raw).mp hRaw)
    refine ⟨⟨target, action⟩, ?_⟩
    rw [Filter.raw, ← FilterPointers.new_injective hPointers, ← hAction]
  obtain ⟨filters, rfl⟩ := (Set.range_list_map Filter.raw).ge hRange
  have hTable (filter : Filter) : filter ∈ filters ↔ table filter.target = some filter.action := by
    rw [← List.mem_map_of_injective Filter.raw_injective, hMem, h.entries]
    constructor
    · rintro ⟨target, action, hKept, hPointers, hAction⟩
      rw [FilterTarget.pointers_injective hPointers, rawFilterAction_injective hAction]
      exact hKept
    · intro hKept
      exact ⟨filter.target, filter.action, hKept, rfl, rfl⟩
  have hBuilt : ∀ filter ∈ filters, filter.target.Built := by
    intro filter hFilter
    exact h.built _ (by simp [(hTable filter).mp hFilter])
  obtain ⟨raws, hEncode, hDecode, hNul⟩ := mapM_encodeFilter hBuilt
  have hPure : encodeFilter = fun filter => pure filter.raw := funext encodeFilter_eq
  rw [hPure, List.mapM_pure] at hEncode
  obtain rfl := Except.ok.inj hEncode
  refine ⟨hNul, filters, hDecode, hTable, ?_⟩
  rw [List.map_map] at hNodup
  exact List.Nodup.of_map FilterTarget.raw (by rwa [List.map_map])

end FilterTable.Represents

/-! ### Operations -/

namespace FilterStore

variable (store : FilterStore)

/-- An operation on the session and on the store, with a target that its caller
built, if it takes one. -/
structure Serves (before : Value × store.State) (performance : Performance)
    (after : Value × store.State) : Prop where
  performs : Performs before.1 performance after.1
  target : ∀ target ∈ performance.op.target?, target.Built
  native : store.contract.Conforms before.2 performance.trace
  state : after.2 = store.contract.after before.2 performance.trace

variable {store} {s : store.State}

/-- A filter that is set joins the table, or the call fails and changes nothing. -/
theorem wp_setFilter (session : RestartSession) (target : FilterTarget) (action : FilterAction) :
    store.contract.traced.wp (session.setFilter target action).run (fun result s' =>
      (result = .ok (.ok ()) ∧ store.Accepts s target.pointers (rawFilterAction action) ∧
        s'.1 = store.add s target.pointers (rawFilterAction action)) ∨
      ∃ code, code ≠ ERROR_SUCCESS ∧ Returned .setFilter s'.2 code ∧
        result = .ok (.error (mapOperationError (.os code) .setFilter)) ∧ s'.1 = s) (s, []) := by
  have hAction : ¬(rawFilterAction action ≠ RM_NO_RESTART ∧ rawFilterAction action ≠ RM_NO_SHUTDOWN) := by
    cases action <;> decide
  unfold RestartSession.setFilter SessionHandle.addFilter
  rw [wp_run_bind, FilterTarget.rawFilterTarget_eq]
  apply (wp_run_lift _ _ _ _).mpr
  apply (wp_mapErr _ _ _ _ _).mpr
  rw [if_neg hAction, wp_run_bind, wp_sysCall]
  refine ⟨trivial, fun code hCode => ?_⟩
  by_cases hSuccess : code = ERROR_SUCCESS
  · refine .inl ⟨?_, hCode hSuccess, if_pos hSuccess⟩
    rw [check, if_pos hSuccess]
    rfl
  · refine .inr ⟨code, hSuccess, ⟨_, List.mem_singleton_self _, rfl, rfl⟩, ?_, if_neg hSuccess⟩
    rw [check, if_neg hSuccess]
    rfl

/-- A filter that is removed leaves it, or the call says that there was none. -/
theorem wp_removeFilter (session : RestartSession) (target : FilterTarget) :
    store.contract.traced.wp (session.removeFilter target).run (fun result s' =>
      (result = .ok (.ok ()) ∧ store.table s target.pointers ≠ none ∧
        s'.1 = store.remove s target.pointers) ∨
      (result = .ok (.error filterNotFound) ∧ store.table s target.pointers = none ∧
        Returned .removeFilter s'.2 ERROR_FILE_NOT_FOUND ∧ s'.1 = s) ∨
      ∃ code, code ≠ ERROR_SUCCESS ∧ code ≠ ERROR_FILE_NOT_FOUND ∧ Returned .removeFilter s'.2 code ∧
        result = .ok (.error (mapOperationError (.os code) .removeFilter)) ∧ s'.1 = s) (s, []) := by
  unfold RestartSession.removeFilter SessionHandle.removeFilter
  rw [wp_run_bind, FilterTarget.rawFilterTarget_eq]
  apply (wp_run_lift _ _ _ _).mpr
  apply (wp_mapErr _ _ _ _ _).mpr
  rw [wp_run_bind, wp_sysCall]
  refine ⟨trivial, fun code hCode => ?_⟩
  obtain ⟨hRemoved, hAbsent⟩ := hCode
  by_cases hSuccess : code = ERROR_SUCCESS
  · refine .inl ⟨?_, hRemoved hSuccess, if_pos hSuccess⟩
    rw [check, if_pos hSuccess]
    rfl
  · have hError : check code = .error (.os code) := if_neg hSuccess
    by_cases hMissing : code = ERROR_FILE_NOT_FOUND
    · refine .inr (.inl ⟨?_, hAbsent hMissing, ?_, if_neg hSuccess⟩)
      · rw [hError, hMissing]
        rfl
      · exact ⟨_, List.mem_singleton_self _, rfl, congrArg some hMissing⟩
    · refine .inr (.inr ⟨code, hSuccess, hMissing, ?_, ?_, if_neg hSuccess⟩)
      · exact ⟨_, List.mem_singleton_self _, rfl, rfl⟩
      · rw [hError]
        rfl

/-- An error with a code is that of a call. -/
theorem returned_of_blamed {operation : Operation} {trace : Trace} {code : UInt32}
    (h : SysBlamed operation trace (.os code)) : Returned operation trace code := by
  cases h with
  | os mem of answered failed => exact ⟨_, mem, of, answered⟩
  | own os changed => exact absurd rfl (os code)

/-- The list that is read back is the table, in some order. -/
theorem wp_filters (session : RestartSession) {table : FilterTable}
    (h : table.Represents (store.table s)) :
    store.contract.traced.wp session.filters.run (fun result s' => s'.1 = s ∧
      ((∃ filters, result = .ok filters ∧ table.Lists filters) ∨
        ∃ code, ListingFailure code ∧ Returned .filters s'.2 code ∧
          result = .error (mapOperationError (.os code) .filters))) (s, []) := by
  obtain ⟨hNul, filters, hDecode, hLists⟩ := h.lists (store.mem_list s) (store.list_nodup s)
  unfold RestartSession.filters
  rw [wp_run_bind, wp_mapErr]
  have hListed : store.contract.traced.wp (getFilters session.core.handle.raw).run (fun result s' =>
      (s'.1 = s ∧ ListedFrom s result) ∧ Accounted (SysBlamed .filters) s'.2 result) (s, []) :=
    wp_traced (store.wp_getFilters _ hNul) (getFilters_accounts _)
  apply wp_mono _ hListed
  rintro result s' ⟨⟨hState, rfl | ⟨code, hFailed, rfl⟩⟩, hAccounted⟩
  · exact ⟨hState, .inl ⟨filters, hDecode, hLists⟩⟩
  · exact ⟨hState, .inr ⟨code, hFailed, returned_of_blamed hAccounted, rfl⟩⟩

/-- Only an operation on a target changes the store. -/
theorem contract_ignores {op : Op} (h : op.target? = none) : store.contract.Ignores s op.Allows := by
  intro c hAllows
  refine ⟨trivial, fun response _ => ?_⟩
  have hKeeps := hAllows.keeps_filters h
  cases c <;> first | rfl | exact absurd trivial hKeeps

theorem wp_borrowingUnwind_run {α : Type} {value : Value} {method : UnwindM (Except Error α)}
    {output : Except Error α → Output} {Q : Value × Output → store.State × Trace → Prop}
    (h : store.contract.traced.wp method.run (fun result => Q (value, match result with
      | .ok result => output result
      | .error payload => .panicked payload)) (s, [])) :
    store.contract.traced.wp (borrowingUnwind value method output) Q (s, []) := by
  rw [borrowingUnwind, wp_bind]
  apply wp_mono _ h
  rintro (payload | result) s' hQ <;> exact hQ

/-- What an operation does to the store, and to the table that it represents. -/
theorem wp_performs {value : Value} {op : Op} {p : Native (Value × Output)} {table : FilterTable}
    (method : perform value op = some p) (hBuilt : ∀ target ∈ op.target?, target.Built)
    (h : table.Represents (store.table s)) :
    store.contract.traced.wp p (fun result s' => ∃ table',
      FilterStep table ⟨op, s'.2, result.2⟩ table' ∧ table'.Represents (store.table s'.1)) (s, []) := by
  by_cases hTarget : op.target? = none ∧ op ≠ .filters
  · obtain ⟨hTarget, hFilters⟩ := hTarget
    have hSame : store.contract.wp p (fun _ s' => s' = s) s :=
      wp_of_makes _ (perform_makes method) (contract_ignores hTarget)
    have hTraced : store.contract.traced.wp p (fun result s' => s'.1 = s ∧ p.Exec s'.2 result) (s, []) :=
      wp_traced hSame fun _ _ run => run
    apply wp_mono _ hTraced
    rintro result ⟨s', trace⟩ ⟨rfl, -⟩
    exact ⟨table, .other hTarget hFilters, h⟩
  -- The other operations are methods of a session that has not shut anything down.
  cases op <;> simp [Op.target?] at hTarget
  all_goals cases value <;> simp only [perform, performSession, performJoined, performPending,
    performCompletion, reduceCtorEq, Option.some.injEq] at method
  all_goals subst method
  case setFilter.session target action session =>
    apply wp_borrowingUnwind_run
    apply wp_mono _ (wp_setFilter session target action)
    rintro result ⟨s', trace⟩ hResult
    rcases hResult with ⟨rfl, hAccepts, rfl⟩ | ⟨code, hFailed, hReturned, rfl, rfl⟩
    · refine ⟨_, .set, ?_⟩
      rw [store.table_add _ _ _ hAccepts]
      exact h.update (hBuilt target rfl) (some action)
    · exact ⟨table, .refused hFailed hReturned, h⟩
  case removeFilter.session target session =>
    apply wp_borrowingUnwind_run
    apply wp_mono _ (wp_removeFilter session target)
    rintro result ⟨s', trace⟩ hResult
    rcases hResult with ⟨rfl, hKept, rfl⟩ | ⟨rfl, hAbsent, hReturned, rfl⟩ |
      ⟨code, hFailed, hFound, hReturned, rfl, rfl⟩
    · refine ⟨_, .removed (h.eq_none_iff.not.mp hKept), ?_⟩
      rw [store.table_remove]
      exact h.update (hBuilt target rfl) none
    · exact ⟨table, .missing (h.eq_none_iff.mp hAbsent) hReturned, h⟩
    · exact ⟨table, .retained hFailed hFound hReturned, h⟩
  case filters.session session =>
    rw [borrowing, wp_bind]
    apply wp_mono _ (wp_filters session h)
    rintro result ⟨s', trace⟩ ⟨rfl, ⟨filters, rfl, hLists⟩ | ⟨code, hFailed, hReturned, rfl⟩⟩
    · exact ⟨table, .listed hLists, h⟩
    · exact ⟨table, .unlisted hFailed hReturned, h⟩

/-- Every operation on the store is one on the table that it represents. -/
theorem Serves.step {before after : Value × store.State} {performance : Performance}
    {table : FilterTable} (h : store.Serves before performance after)
    (represents : table.Represents (store.table before.2)) :
    ∃ table', FilterStep table performance table' ∧ table'.Represents (store.table after.2) := by
  obtain ⟨⟨p, method, run⟩, hBuilt, hNative, hState⟩ := h
  rw [hState]
  exact exec_traced run (wp_performs method hBuilt represents) hNative

/-- From a store that represents a table, whatever a session does and whatever
store Windows keeps, what the session returns is what the table returns. -/
theorem filters_refine_table {table : FilterTable} {before after : Value × store.State}
    {performances : List Performance} (represents : table.Represents (store.table before.2))
    (run : Run store.Serves before performances after) :
    ∃ table', Run FilterStep table performances table' ∧ table'.Represents (store.table after.2) := by
  apply run.simulate represents
  intro before performance after table hRepresents step
  exact step.step hRepresents

end FilterStore

end

/-! ### A store of two filters -/

section

attribute [local instance] Platform.driveLetters

def servicePointers : FilterPointers := .new (.service ⟨[0x73]⟩)

def processPointers : FilterPointers := .new (.process ⟨7, 5⟩)

theorem servicePointers_ne : servicePointers ≠ processPointers := by decide

/-- The store has room for one filter of a service and one of a process, and
accepts no other. -/
def linkedStore : FilterStore where
  State := Bool × Bool
  table kept pointers :=
    if pointers = servicePointers then if kept.1 then some 2 else none
    else if pointers = processPointers then if kept.2 then some 1 else none
    else none
  Accepts _ pointers action :=
    (pointers = servicePointers ∧ action = 2) ∨ (pointers = processPointers ∧ action = 1)
  add kept pointers _ := (kept.1 || pointers == servicePointers, kept.2 || pointers == processPointers)
  remove kept pointers := (kept.1 && pointers != servicePointers, kept.2 && pointers != processPointers)
  table_add kept pointers action hAccepts := by
    funext pointers'
    have hNe := servicePointers_ne
    rcases hAccepts with ⟨rfl, rfl⟩ | ⟨rfl, rfl⟩
    · by_cases h : pointers' = servicePointers <;> simp [h, hNe]
    · by_cases h : pointers' = processPointers <;> simp [h, hNe.symm]
  table_remove kept pointers := by
    funext pointers'
    have hNe := servicePointers_ne
    by_cases h : pointers' = pointers
    · subst h
      by_cases hService : pointers' = servicePointers
      · simp [hService]
      · by_cases hProcess : pointers' = processPointers <;> simp [hService, hProcess, hNe.symm]
    · rw [Function.update_of_ne h]
      by_cases hService : pointers' = servicePointers
      · subst hService
        simp [Ne.symm h]
      · by_cases hProcess : pointers' = processPointers
        · subst hProcess
          simp [Ne.symm h, hNe.symm]
        · simp [hService, hProcess]
  list
    | (false, false) => []
    | (false, true) => [⟨.process ⟨7, 5⟩, 1⟩]
    | (true, false) => [⟨.service ⟨[0x73]⟩, 2⟩]
    | (true, true) => linkedFilters
  mem_list kept raw := by
    obtain ⟨target, action⟩ := raw
    have hService : FilterPointers.new target = servicePointers ↔ target = .service ⟨[0x73]⟩ :=
      FilterPointers.new_injective.eq_iff
    have hProcess : FilterPointers.new target = processPointers ↔ target = .process ⟨7, 5⟩ :=
      FilterPointers.new_injective.eq_iff
    simp only [hService, hProcess]
    by_cases hTarget : target = .service ⟨[0x73]⟩
    · rcases kept with ⟨_ | _, _ | _⟩ <;> simp [hTarget, linkedFilters, @eq_comm _ action]
    by_cases hTarget' : target = .process ⟨7, 5⟩
    · rcases kept with ⟨_ | _, _ | _⟩ <;> simp [hTarget', linkedFilters, @eq_comm _ action]
    · rcases kept with ⟨_ | _, _ | _⟩ <;> simp [hTarget, hTarget', linkedFilters]
  list_nodup kept := by rcases kept with ⟨_ | _, _ | _⟩ <;> simp [linkedFilters]
  size
    | (false, false) => 0
    | (false, true) => 32
    | (true, false) => 37
    | (true, true) => 69
  size_le kept := by rcases kept with ⟨_ | _, _ | _⟩ <;> decide
  size_nil kept h := by rcases kept with ⟨_ | _, _ | _⟩ <;> simp_all [linkedFilters]
  encode kept base := match kept with
    | (false, false) => []
    | (false, true) => processRecord
    | (true, false) => serviceBytes [] base
    | (true, true) => linkedBytes base
  encode_length kept base := by
    rcases kept with ⟨_ | _, _ | _⟩
    · rfl
    · rfl
    · exact serviceBytes_length [] base
    · exact serviceBytes_length processRecord base
  stored kept buffer hList _ hBytes := by
    rcases kept with ⟨_ | _, _ | _⟩
    · exact absurd rfl hList
    · exact storesChain_processRecord hBytes
    · exact storesChain_serviceBytes hBytes
    · exact storesChain_linkedBytes hBytes

/-- Both filters are set, and listed. The filter of the service is removed,
and missing from then on. -/
def linkedPerformances : List Performance :=
  [⟨.setFilter linkedService .preventShutdown,
      [⟨.rmAddFilter 3 none none (some (.new ⟨[0x73]⟩)) 2, ERROR_SUCCESS⟩], .done (.ok ())⟩,
    ⟨.setFilter linkedProcess .preventRestart,
      [⟨.rmAddFilter 3 none (some (nativeUniqueProcess ⟨7, 5⟩)) none 1, ERROR_SUCCESS⟩], .done (.ok ())⟩,
    ⟨.filters, ⟨.rmGetFilterList 3 none 0, ⟨ERROR_MORE_DATA, 69, []⟩⟩ :: linkedFetch,
      .filters (.ok linkedTargets)⟩,
    ⟨.removeFilter linkedService,
      [⟨.rmRemoveFilter 3 none none (some (.new ⟨[0x73]⟩)), ERROR_SUCCESS⟩], .done (.ok ())⟩,
    ⟨.removeFilter linkedService,
      [⟨.rmRemoveFilter 3 none none (some (.new ⟨[0x73]⟩)), ERROR_FILE_NOT_FOUND⟩],
      .done (.error filterNotFound)⟩]

theorem exec_filters_linked (key : SessionKey) :
    (RestartSession.mk ⟨⟨3, false⟩, key⟩).filters.run.Exec
      (⟨.rmGetFilterList 3 none 0, ⟨ERROR_MORE_DATA, 69, []⟩⟩ :: linkedFetch) (.ok linkedTargets) := by
  have hGet : (getFilters 3).run.Exec
      (⟨.rmGetFilterList 3 none 0, ⟨ERROR_MORE_DATA, 69, []⟩⟩ :: linkedFetch) (.ok linkedFilters) :=
    .step (exec_linkedFetch 7)
  have hRaws : (mapErr (getFilters 3) (mapOperationError · .filters)).run.Exec
      (⟨.rmGetFilterList 3 none 0, ⟨ERROR_MORE_DATA, 69, []⟩⟩ :: linkedFetch) (.ok linkedFilters) :=
    exec_map_iff.mpr ⟨_, hGet, rfl⟩
  exact exec_run_bind_iff.mpr (.inr ⟨_, [], _, (List.append_nil _).symm, hRaws, .refl _⟩)

theorem linkedPerformances_run (key : SessionKey) :
    Run linkedStore.Serves (.session ⟨⟨3, false⟩, key⟩, false, false) linkedPerformances
      (.session ⟨⟨3, false⟩, key⟩, false, true) := by
  let session : Value := .session ⟨⟨3, false⟩, key⟩
  have hSetService : linkedStore.Serves (session, false, false) linkedPerformances[0]
      (session, true, false) := by
    refine ⟨⟨_, rfl, .step (.refl _)⟩, ?_, ⟨fun _ => .inl ⟨rfl, rfl⟩, trivial⟩, rfl⟩
    rintro target ⟨⟩
    exact linkedService_built
  have hSetProcess : linkedStore.Serves (session, true, false) linkedPerformances[1]
      (session, true, true) := by
    refine ⟨⟨_, rfl, .step (.refl _)⟩, ?_, ⟨fun _ => .inr ⟨rfl, rfl⟩, trivial⟩, rfl⟩
    rintro target ⟨⟩
    exact linkedProcess_built
  have hList : linkedStore.Serves (session, true, true) linkedPerformances[2] (session, true, true) := by
    refine ⟨⟨_, rfl, ?_⟩, fun target h => (by cases h), ?_, rfl⟩
    · exact exec_bind_iff.mpr ⟨_, [], _, (List.append_nil _).symm, exec_filters_linked key, .refl _⟩
    · refine ⟨.inr ⟨rfl, rfl⟩, Option.some_ne_none _, .inr ⟨rfl, rfl, ?_⟩, trivial, Option.some_ne_none _,
        trivial, trivial, trivial, trivial⟩
      rintro base ⟨⟩
      rfl
  have hRemove : linkedStore.Serves (session, true, true) linkedPerformances[3] (session, false, true) := by
    have hKept : linkedStore.table (true, true) servicePointers ≠ none := by decide
    refine ⟨⟨_, rfl, .step (.refl _)⟩, ?_, ⟨⟨fun _ => hKept, fun h => absurd h (by decide)⟩, trivial⟩, rfl⟩
    rintro target ⟨⟩
    exact linkedService_built
  have hMissing : linkedStore.Serves (session, false, true) linkedPerformances[4]
      (session, false, true) := by
    refine ⟨⟨_, rfl, .step (.refl _)⟩, ?_, ⟨⟨fun h => absurd h (by decide), fun _ => rfl⟩, trivial⟩, rfl⟩
    rintro target ⟨⟩
    exact linkedService_built
  exact ((((Run.refl.snoc hSetService).snoc hSetProcess).snoc hList).snoc hRemove).snoc hMissing

/-- Two filters are set and listed, and one of them is removed twice. -/
theorem filters_refine_table_linked : ∃ table : FilterTable,
    Run FilterStep (fun _ => none) linkedPerformances table ∧
      table.Represents (linkedStore.table (false, true)) := by
  have hEmpty : FilterTable.Represents (fun _ => none) (linkedStore.table (false, false)) := by
    have hTable : linkedStore.table (false, false) = fun _ => none := by
      funext pointers
      simp [linkedStore]
    rw [hTable]
    exact .empty
  exact FilterStore.filters_refine_table hEmpty
    (linkedPerformances_run ⟨List.replicate 32 0x30, by decide⟩)

end
end RestartManager
