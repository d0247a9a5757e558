import RestartManager.Session.ApplicationSnapshot
import RestartManager.Session.FilterRoundTrip
import RestartManager.Session.Operations
import RestartManager.Sys.FilterSnapshot

/-! What the two lists of a session return for whatever Windows answers: how
often they ask, with how much room, and which of the answers counts. -/
namespace RestartManager

open Platform Interaction Contract Program

/-- A list call of a run: the room that was offered, and the reply. -/
structure Fetch (Reply : Type) where
  offered : UInt32
  reply : Reply

section

variable [Platform]

/-! ### Affected applications -/

/-- A reply that asks for another call. -/
def Fetch.Incomplete (fetch : Fetch GetListReply) : Prop := fetch.reply.code = ERROR_MORE_DATA

/-- What the buffer of a call holds when it returns. -/
def Fetch.entries (fetch : Fetch GetListReply) : List RmProcessInfo :=
  writeEntries (List.replicate fetch.offered.toNat default) fetch.reply.entries

/-- The exchange of a listing up to a list call, with the number of list calls
and the last of them. The first call offers nothing. Each later one follows
one that was incomplete, and offers the room that was asked for and granted. -/
inductive ReportCalls (raw : UInt32) : Trace → Nat → Fetch GetListReply → Prop
  | probe (reply : GetListReply) : ReportCalls raw [⟨.rmGetList raw 0, reply⟩] 1 ⟨0, reply⟩
  | fetch {trace : Trace} {calls : Nat} {last : Fetch GetListReply}
      (before : ReportCalls raw trace calls last) (incomplete : last.Incomplete)
      (allocation : Allocation (last.reply.needed.toNat * processInfoSize)) (reply : GetListReply) :
      ReportCalls raw
        (trace ++ [⟨.tryReserveExact last.reply.needed.toNat processInfoSize, some allocation⟩,
          ⟨.rmGetList raw last.reply.needed, reply⟩])
        (calls + 1) ⟨last.reply.needed, reply⟩

/-- What a listing does after the last of its calls, and returns. -/
inductive ReportFrom (calls : Nat) (last : Fetch GetListReply) :
    Trace → SysResult RawAffectedApplications → Prop
  /-- A probe that succeeds has no entries, whatever it asked for. -/
  | probed (first : calls = 1) (success : last.reply.code = ERROR_SUCCESS) :
      ReportFrom calls last [] (.ok ⟨[], last.reply.rebootReasons⟩)
  | listed {applications : List RawApplication} (fetched : 1 < calls)
      (success : last.reply.code = ERROR_SUCCESS) (fits : last.reply.supplied ≤ last.offered)
      (decoded : (last.entries.take last.reply.supplied.toNat).mapM rawApplication = .ok applications) :
      ReportFrom calls last [] (.ok ⟨applications, last.reply.rebootReasons⟩)
  | undecodable {error : SysError} (fetched : 1 < calls) (success : last.reply.code = ERROR_SUCCESS)
      (fits : last.reply.supplied ≤ last.offered)
      (decoded : (last.entries.take last.reply.supplied.toNat).mapM rawApplication = .error error) :
      ReportFrom calls last [] (.error error)
  | overlong (fetched : 1 < calls) (success : last.reply.code = ERROR_SUCCESS)
      (exceeds : last.offered < last.reply.supplied) :
      ReportFrom calls last []
        (.error (.malformedOutput "RmGetList returned more entries than the supplied buffer"))
  | failed (failure : last.reply.code ≠ ERROR_SUCCESS) (final : ¬last.Incomplete) :
      ReportFrom calls last [] (.error (.os last.reply.code))
  /-- The room that the last call asked for was not there. -/
  | unallocated (incomplete : last.Incomplete) (attempts : calls ≤ MAX_LIST_ATTEMPTS) :
      ReportFrom calls last [⟨.tryReserveExact last.reply.needed.toNat processInfoSize, none⟩]
        (.error .allocationFailure)
  | changed (incomplete : last.Incomplete) (exhausted : calls = MAX_LIST_ATTEMPTS + 1) :
      ReportFrom calls last [] (.error (.dataChanged ERROR_MORE_DATA))

/-- What the calls of a listing lead to. -/
def ReportSettled (raw : UInt32) (result : SysResult RawAffectedApplications) (trace : Trace) : Prop :=
  ∃ listed later calls last, trace = listed ++ later ∧ ReportCalls raw listed calls last ∧
    calls ≤ MAX_LIST_ATTEMPTS + 1 ∧ ReportFrom calls last later result

section Report

variable {raw : UInt32} {trace : Trace} {calls : Nat} {last : Fetch GetListReply}
  {result : SysResult RawAffectedApplications}

/-- Nothing is asked for after the last call. -/
theorem ReportCalls.settled (h : ReportCalls raw trace calls last) (hCalls : calls ≤ MAX_LIST_ATTEMPTS + 1)
    (hResult : ReportFrom calls last [] result) : ReportSettled raw result trace :=
  ⟨trace, [], calls, last, (List.append_nil trace).symm, h, hCalls, hResult⟩

theorem wp_settles_fetch {attempts : Nat} (h : ReportCalls raw trace calls last) (hLast : last.Incomplete)
    (hCount : calls + attempts = MAX_LIST_ATTEMPTS + 1) :
    recording.wp (fetchApplications raw attempts last.reply.needed).run (ReportSettled raw) trace := by
  induction attempts generalizing trace calls last with
  | zero => exact h.settled (by omega) (.changed hLast (by omega))
  | succ attempts ih =>
      rw [fetchApplications, usizeTryFrom_eq, pure_bind, wp_run_bind, wp_sysCall]
      refine ⟨trivial, fun allocation _ => ?_⟩
      cases allocation with
      | none => exact ⟨trace, _, calls, last, rfl, h, by omega, .unallocated hLast (by omega)⟩
      | some allocation =>
          dsimp only
          rw [wp_run_bind, wp_sysCall]
          refine ⟨trivial, fun reply _ => ?_⟩
          have hNext : ReportCalls raw (trace ++ [⟨.tryReserveExact last.reply.needed.toNat processInfoSize,
              some allocation⟩] ++ [⟨.rmGetList raw last.reply.needed, reply⟩]) (calls + 1)
              ⟨last.reply.needed, reply⟩ := by
            rw [List.append_assoc]
            exact h.fetch hLast allocation reply
          have hPos : 0 < calls := by cases h <;> omega
          have hFetched : 1 < calls + 1 := by omega
          dsimp only
          by_cases hMore : reply.code = ERROR_MORE_DATA
          · rw [if_pos hMore]
            exact ih hNext hMore (by omega)
          rw [if_neg hMore, wp_run_bind, wp_ofResult]
          by_cases hSuccess : reply.code = ERROR_SUCCESS
          · rw [check, if_pos hSuccess]
            dsimp only
            rw [usizeTryFrom_eq, pure_bind, length_writeEntries, List.length_replicate]
            by_cases hExceeds : reply.supplied.toNat > last.reply.needed.toNat
            · rw [if_pos hExceeds]
              exact hNext.settled (by omega)
                (.overlong hFetched hSuccess (UInt32.lt_iff_toNat_lt.mpr hExceeds))
            have hFits : reply.supplied ≤ last.reply.needed :=
              UInt32.le_iff_toNat_le.mpr (Nat.le_of_not_gt hExceeds)
            rw [if_neg hExceeds, wp_run_bind, wp_ofResult]
            generalize hDecoded : List.mapM rawApplication _ = applications
            cases applications with
            | error error => exact hNext.settled (by omega) (.undecodable hFetched hSuccess hFits hDecoded)
            | ok applications => exact hNext.settled (by omega) (.listed hFetched hSuccess hFits hDecoded)
          · rw [check, if_neg hSuccess]
            exact hNext.settled (by omega) (.failed hSuccess hMore)

/-- Whatever Windows answers, the report is that of the last call. -/
theorem wp_settles_applications (raw : UInt32) :
    recording.wp (affectedApplications raw).run (ReportSettled raw) [] := by
  rw [affectedApplications, wp_run_bind, wp_sysCall]
  refine ⟨trivial, fun first _ => ?_⟩
  have hCalls : ReportCalls raw ([] ++ [⟨.rmGetList raw 0, first⟩]) 1 ⟨0, first⟩ := .probe first
  dsimp only
  by_cases hSuccess : first.code = ERROR_SUCCESS
  · rw [if_pos hSuccess]
    exact hCalls.settled (by decide) (.probed rfl hSuccess)
  · rw [if_neg hSuccess]
    by_cases hMore : first.code = ERROR_MORE_DATA
    · rw [if_neg (not_not.mpr hMore)]
      exact wp_settles_fetch hCalls hMore rfl
    · rw [if_pos hMore]
      exact hCalls.settled (by decide) (.failed hSuccess hMore)

end Report

/-! ### Filters -/

/-- A reply, with the buffer that it was written to. -/
structure FilterReply where
  buffer : Option Nat
  reply : GetFilterListReply

def FilterReply.needed (fetched : FilterReply) : UInt32 := fetched.reply.needed

namespace Fetch

/-- The code that the call returned. -/
def code (fetch : Fetch FilterReply) : UInt32 := fetch.reply.reply.code

/-- A fetch is repeated when there was more, and a probe also when it succeeded. -/
def Asks (fetch : Fetch FilterReply) : Prop :=
  fetch.code = ERROR_MORE_DATA ∨ (fetch.reply.buffer = none ∧ fetch.code = ERROR_SUCCESS)

/-- The number of bytes that are parsed. -/
def valid (fetch : Fetch FilterReply) : UInt32 :=
  if fetch.reply.needed = 0 then fetch.offered else fetch.reply.needed

/-- A buffer of zeros in which the reply was written, and no other one. -/
structure Written (fetch : Fetch FilterReply) (buffer : AlignedBuffer) : Prop where
  base : fetch.reply.buffer = some buffer.base
  bytes : ∃ zeros : AlignedBuffer, zeros.bytes = List.replicate zeros.byteCapacity 0 ∧
    fetch.offered.toNat ≤ zeros.byteCapacity ∧ buffer = zeros.write fetch.reply.reply.written

/-- Another buffer is made for as much as the call asked for. -/
structure Repeats (fetch : Fetch FilterReply) : Prop where
  asks : fetch.Asks
  some_needed : fetch.reply.needed ≠ 0

/-- The request for that buffer, of whole words, and what became of it. -/
inductive Reserves (fetch : Fetch FilterReply) : Trace → SysResult AlignedBuffer → Prop
  | granted {padded : Nat} {buffer : AlignedBuffer}
      {allocation : Allocation (padded / pointerWidth.bytes * pointerWidth.bytes)}
      (counted : checkedAdd fetch.reply.needed.toNat (pointerWidth.bytes - 1) = some padded)
      (base : buffer.base = allocation.base) (zeros : buffer.bytes = List.replicate buffer.byteCapacity 0)
      (room : fetch.reply.needed.toNat ≤ buffer.byteCapacity) :
      Reserves fetch
        [⟨.tryReserveExact (padded / pointerWidth.bytes) pointerWidth.bytes, some allocation⟩] (.ok buffer)
  | denied {padded : Nat}
      (counted : checkedAdd fetch.reply.needed.toNat (pointerWidth.bytes - 1) = some padded) :
      Reserves fetch [⟨.tryReserveExact (padded / pointerWidth.bytes) pointerWidth.bytes, none⟩]
        (.error .allocationFailure)
  /-- There are too many bytes to count. -/
  | uncountable (overflow : checkedAdd fetch.reply.needed.toNat (pointerWidth.bytes - 1) = none) :
      Reserves fetch [] (.error .countOverflow)

end Fetch

/-- The exchange of a listing up to a list call, with the number of list calls
and the last of them. The first call offers no buffer. Each later one follows
one that asked for more, and offers the buffer that was granted for it. -/
inductive FilterCalls (raw : UInt32) : Trace → Nat → Fetch FilterReply → Prop
  | probe (reply : GetFilterListReply) :
      FilterCalls raw [⟨.rmGetFilterList raw none 0, reply⟩] 1 ⟨0, none, reply⟩
  | fetch {trace reserve : Trace} {calls : Nat} {last : Fetch FilterReply} {buffer : AlignedBuffer}
      (before : FilterCalls raw trace calls last) (repeats : last.Repeats)
      (reserves : last.Reserves reserve (.ok buffer)) (reply : GetFilterListReply) :
      FilterCalls raw
        (trace ++ reserve ++ [⟨.rmGetFilterList raw (some buffer.base) last.reply.needed, reply⟩])
        (calls + 1) ⟨last.reply.needed, some buffer.base, reply⟩

/-- A call that succeeded, and the buffer that is parsed for it. The parse
reads inside the buffer and asks for room for strings, and for nothing else. -/
structure Fetch.Parses (fetch : Fetch FilterReply) (buffer : AlignedBuffer) (later : Trace) : Prop where
  success : fetch.code = ERROR_SUCCESS
  written : fetch.Written buffer
  fits : fetch.valid ≤ fetch.offered
  reads : (bufferContract buffer fetch.valid.toNat True).Respects () later

/-- What a listing does after the last of its calls, and returns. -/
inductive FiltersFrom (calls : Nat) (last : Fetch FilterReply) : Trace → SysResult (List RawFilter) → Prop
  /-- Nothing is needed, also where the code says that there is more. -/
  | empty (asks : last.Asks) (nothing : last.reply.needed = 0) (attempts : calls ≤ MAX_LIST_ATTEMPTS) :
      FiltersFrom calls last [] (.ok [])
  | listed {buffer : AlignedBuffer} {later : Trace} {filters : List RawFilter}
      (parses : last.Parses buffer later) (holds : HoldsFilters buffer last.valid.toNat filters) :
      FiltersFrom calls last later (.ok filters)
  | malformed {buffer : AlignedBuffer} {later : Trace} {detail : String}
      (parses : last.Parses buffer later) (holds : ∀ filters, ¬HoldsFilters buffer last.valid.toNat filters) :
      FiltersFrom calls last later (.error (.malformedOutput detail))
  /-- There was no room for a string of the list. -/
  | unread {buffer : AlignedBuffer} {later : Trace} {units : Nat} (parses : last.Parses buffer later)
      (denied : ⟨.tryReserveExact units 2, none⟩ ∈ later) :
      FiltersFrom calls last later (.error .allocationFailure)
  | overlong (success : last.code = ERROR_SUCCESS) (fetched : last.reply.buffer ≠ none)
      (exceeds : last.offered < last.valid) : FiltersFrom calls last []
        (.error (.malformedOutput "RmGetFilterList reported a length larger than its buffer"))
  | failed (failure : last.code ≠ ERROR_SUCCESS) (final : ¬last.Asks) :
      FiltersFrom calls last [] (.error (.os last.code))
  /-- The buffer that the last call asked for was not made. -/
  | unallocated {later : Trace} {error : SysError} (repeats : last.Repeats)
      (attempts : calls ≤ MAX_LIST_ATTEMPTS) (reserves : last.Reserves later (.error error)) :
      FiltersFrom calls last later (.error error)
  | changed (incomplete : last.code = ERROR_MORE_DATA) (exhausted : calls = MAX_LIST_ATTEMPTS + 1) :
      FiltersFrom calls last [] (.error (.dataChanged ERROR_MORE_DATA))

/-- What the calls of a listing lead to. -/
def FiltersSettled (raw : UInt32) (result : SysResult (List RawFilter)) (trace : Trace) : Prop :=
  ∃ listed later calls last, trace = listed ++ later ∧ FilterCalls raw listed calls last ∧
    calls ≤ MAX_LIST_ATTEMPTS + 1 ∧ FiltersFrom calls last later result

section Filters

variable {raw : UInt32} {trace later : Trace} {calls : Nat} {last : Fetch FilterReply}
  {buffer : AlignedBuffer}

/-- Nothing is asked for after the last call. -/
theorem FilterCalls.settled {result : SysResult (List RawFilter)} (h : FilterCalls raw trace calls last)
    (hCalls : calls ≤ MAX_LIST_ATTEMPTS + 1) (hResult : FiltersFrom calls last [] result) :
    FiltersSettled raw result trace :=
  ⟨trace, [], calls, last, (List.append_nil trace).symm, h, hCalls, hResult⟩

theorem new_reserves {result : SysResult AlignedBuffer}
    (run : (AlignedBuffer.new last.reply.needed).run.Exec later result) : last.Reserves later result := by
  unfold AlignedBuffer.new at run
  rw [usizeTryFrom_eq, pure_bind] at run
  dsimp only at run
  cases hPadded : checkedAdd last.reply.needed.toNat (pointerWidth.bytes - 1) with
  | none =>
      rw [hPadded] at run
      obtain ⟨rfl, rfl⟩ := exec_done_iff.mp run
      exact .uncountable hPadded
  | some padded =>
      rw [hPadded] at run
      obtain ⟨allocation, rest, rfl, hRest⟩ := exec_call_iff.mp run
      cases allocation with
      | none =>
          obtain ⟨rfl, rfl⟩ := exec_done_iff.mp hRest
          exact .denied hPadded
      | some allocation =>
          obtain ⟨rfl, rfl⟩ := exec_done_iff.mp hRest
          obtain ⟨-, rfl⟩ := checkedAdd_eq_some.mp hPadded
          refine .granted hPadded rfl (by simp [AlignedBuffer.byteCapacity]) ?_
          simp only [AlignedBuffer.byteCapacity, List.length_replicate]
          unfold PointerWidth.bytes
          split <;> omega

/-- Whatever room is granted, a parse decides what the buffer holds, or there
was no room for a string. -/
theorem parse_decides {byteLen : Nat} {result : SysResult (List RawFilter)}
    (hLen : byteLen ≤ buffer.byteCapacity) (run : (parseFilterBuffer buffer byteLen).run.Exec later result) :
    (bufferContract buffer byteLen True).Respects () later ∧
      Decides (∃ units, ⟨.tryReserveExact units 2, none⟩ ∈ later) (HoldsFilters buffer byteLen) result := by
  have hParse : (bufferContract buffer byteLen True).wp (parseFilterBuffer buffer byteLen).run _ _ :=
    wp_parseFilterBuffer hLen
  have hUnits : Makes (fun c => ∀ count size, c = .tryReserveExact count size → size = 2)
      (parseFilterBuffer buffer byteLen).run := by
    refine makes_of_wp _ hParse bufferContract_rely ?_
    rintro _ _ hReserve count size rfl
    exact hReserve
  obtain ⟨hReads, -⟩ := wp_exec _ run hParse (conforms_of_rely _ bufferContract_rely () later)
  refine ⟨hReads, (wp_exec _ run (wp_parseFilterBuffer hLen) (bufferContract_conforms ?_)).2⟩
  intro count size hDenied
  obtain rfl := hUnits.events run _ hDenied count size rfl
  exact ⟨count, hDenied⟩

/-- The end of an attempt whose call succeeded. -/
theorem wp_settles_parse (h : FilterCalls raw trace calls last) (hCalls : calls ≤ MAX_LIST_ATTEMPTS + 1)
    (hSuccess : last.code = ERROR_SUCCESS) (written : last.Written buffer) :
    recording.wp (if last.valid > last.offered then
        throw (.malformedOutput "RmGetFilterList reported a length larger than its buffer")
      else parseFilterBuffer buffer last.valid.toNat : SysM (List RawFilter)).run (FiltersSettled raw) trace := by
  by_cases hExceeds : last.valid > last.offered
  · rw [if_pos hExceeds]
    exact h.settled hCalls (.overlong hSuccess (by simp [written.base]) hExceeds)
  · have hFits : last.valid ≤ last.offered := UInt32.not_lt.mp hExceeds
    have hLen : last.valid.toNat ≤ buffer.byteCapacity := by
      obtain ⟨zeros, -, hOffered, rfl⟩ := written.bytes
      rw [AlignedBuffer.byteCapacity_write]
      exact (UInt32.le_iff_toNat_le.mp hFits).trans hOffered
    rw [if_neg hExceeds]
    apply wp_recording
    intro later result run
    obtain ⟨hReads, hDecides⟩ := parse_decides hLen run
    refine ⟨trace, later, calls, last, rfl, h, hCalls, ?_⟩
    have hParses : last.Parses buffer later := ⟨hSuccess, written, hFits, hReads⟩
    cases hDecides with
    | holds hHolds => exact .listed hParses hHolds
    | malformed hNone => exact .malformed hParses hNone
    | allocation hDenied =>
        obtain ⟨units, hDenied⟩ := hDenied
        exact .unread hParses hDenied

theorem wp_settles_fetchFilters {attempts : Nat} (h : FilterCalls raw trace calls last) (hAsks : last.Asks)
    (hFetched : 1 < calls → last.code = ERROR_MORE_DATA)
    (hCount : calls + attempts = MAX_LIST_ATTEMPTS + 1) :
    recording.wp (fetchFilters raw attempts last.reply.needed).run (FiltersSettled raw) trace := by
  induction attempts generalizing trace calls last with
  | zero =>
      have hLast : calls = MAX_LIST_ATTEMPTS + 1 := hCount
      exact h.settled hLast.le (.changed (hFetched (by rw [hLast]; decide)) hLast)
  | succ attempts ih =>
      rw [fetchFilters]
      by_cases hNothing : last.reply.needed = 0
      · rw [if_pos hNothing]
        exact h.settled (by omega) (.empty hAsks hNothing (by omega))
      have hRepeats : last.Repeats := ⟨hAsks, hNothing⟩
      rw [if_neg hNothing, wp_run_bind]
      apply wp_recording
      intro reserve result run
      have hReserves := new_reserves run
      cases result with
      | error error =>
          exact ⟨trace, reserve, calls, last, rfl, h, by omega, .unallocated hRepeats (by omega) hReserves⟩
      | ok buffer =>
          dsimp only
          rw [wp_run_bind, wp_sysCall]
          refine ⟨trivial, fun reply _ => ?_⟩
          have hNext := h.fetch hRepeats hReserves reply
          have hWritten : Fetch.Written ⟨last.reply.needed, some buffer.base, reply⟩
              (buffer.write reply.written) := by
            cases hReserves with
            | granted _ _ hZeros hRoom => exact ⟨rfl, buffer, hZeros, hRoom, rfl⟩
          dsimp only
          by_cases hMore : reply.code = ERROR_MORE_DATA
          · rw [if_pos hMore]
            exact ih hNext (.inl hMore) (fun _ => hMore) (by omega)
          rw [if_neg hMore, wp_run_bind, wp_ofResult]
          by_cases hSuccess : reply.code = ERROR_SUCCESS
          · rw [check, if_pos hSuccess]
            exact wp_settles_parse hNext (by omega) hSuccess hWritten
          · rw [check, if_neg hSuccess]
            refine hNext.settled (by omega) (.failed hSuccess ?_)
            rintro (hCode | ⟨hBuffer, -⟩)
            · exact hMore hCode
            · cases hBuffer

/-- Whatever Windows answers, the filters are those of the last call. -/
theorem wp_settles_getFilters (raw : UInt32) :
    recording.wp (getFilters raw).run (FiltersSettled raw) [] := by
  rw [getFilters, wp_run_bind, wp_sysCall]
  refine ⟨trivial, fun first _ => ?_⟩
  have hCalls : FilterCalls raw ([] ++ [⟨.rmGetFilterList raw none 0, first⟩]) 1 ⟨0, none, first⟩ :=
    .probe first
  dsimp only
  by_cases hEmpty : first.code = ERROR_SUCCESS ∧ first.needed = 0
  · rw [if_pos hEmpty]
    exact hCalls.settled (by decide) (.empty (.inr ⟨rfl, hEmpty.1⟩) hEmpty.2 (by decide))
  rw [if_neg hEmpty]
  by_cases hFinal : first.code ≠ ERROR_SUCCESS ∧ first.code ≠ ERROR_MORE_DATA
  · rw [if_pos hFinal]
    refine hCalls.settled (by decide) (.failed hFinal.1 ?_)
    rintro (hCode | ⟨-, hCode⟩)
    · exact hFinal.2 hCode
    · exact hFinal.1 hCode
  · rw [if_neg hFinal]
    have hAsks : Fetch.Asks ⟨0, none, first⟩ := by
      by_cases hSuccess : first.code = ERROR_SUCCESS
      · exact .inr ⟨rfl, hSuccess⟩
      · exact .inl (not_not.mp fun hMore => hFinal ⟨hSuccess, hMore⟩)
    exact wp_settles_fetchFilters hCalls hAsks (fun h => absurd h (lt_irrefl 1)) rfl

end Filters

/-! ### Operations -/

section

variable {value value' : Value} {p : Native (Value × Output)} {trace : Trace} {output : Output}

theorem wp_settles_core (core : SessionCore) :
    recording.wp core.affectedApplications.run (fun result s => ∃ raw,
      ReportSettled core.handle.raw raw s ∧
      result = (raw.mapError (mapOperationError · .report)).map applicationReport) [] := by
  unfold SessionCore.affectedApplications
  rw [wp_run_bind, wp_mapErr]
  apply wp_mono _ (wp_settles_applications core.handle.raw)
  intro raw s hRaw
  cases raw with
  | error error => exact ⟨.error error, hRaw, rfl⟩
  | ok raw => exact ⟨.ok raw, hRaw, rfl⟩

/-- A report of affected applications, whatever Windows answers: at most nine
calls on the handle of the session, each with the room that the one before it
asked for, and nothing of any answer but the last. -/
theorem applications_settle (method : perform value .affectedApplications = some p)
    (run : p.Exec trace (value', output)) :
    value' = value ∧ ∃ core raw,
      (value = .session ⟨core⟩ ∨ ∃ outcome, value = .completion ⟨core, outcome⟩) ∧
        ReportSettled core.handle.raw raw trace ∧
        output = .applications ((raw.mapError (mapOperationError · .report)).map applicationReport) := by
  have hCore (core : SessionCore) : recording.wp (borrowing value core.affectedApplications .applications)
      (fun result s => result.1 = value ∧ ∃ raw, ReportSettled core.handle.raw raw s ∧ result.2 =
        .applications ((raw.mapError (mapOperationError · .report)).map applicationReport)) [] := by
    apply (wp_bind _ _ _ _ _).mpr
    apply wp_mono _ (wp_settles_core core)
    rintro _ s ⟨raw, hRaw, rfl⟩
    exact ⟨rfl, raw, hRaw, rfl⟩
  cases value <;> cases method
  case session session =>
    obtain ⟨hValue, raw, hSettled⟩ := exec_recording run (hCore session.core)
    exact ⟨hValue, session.core, raw, .inl rfl, hSettled⟩
  case completion completion =>
    obtain ⟨hValue, raw, hSettled⟩ := exec_recording run (hCore completion.core)
    exact ⟨hValue, completion.core, raw, .inr ⟨completion.outcome, rfl⟩, hSettled⟩

/-- A listing of the filters, whatever Windows answers: at most nine calls on
the handle of the session, and nothing of any answer but the last. -/
theorem filters_settle (method : perform value .filters = some p) (run : p.Exec trace (value', output)) :
    value' = value ∧ ∃ session raws, value = .session session ∧
      FiltersSettled session.core.handle.raw raws trace ∧
      output = .filters (raws.mapError (mapOperationError · .filters) >>= (·.mapM filterFromRaw)) := by
  have hSession (session : RestartSession) : recording.wp (borrowing value session.filters .filters)
      (fun result s => result.1 = value ∧ ∃ raws, FiltersSettled session.core.handle.raw raws s ∧
        result.2 = .filters (raws.mapError (mapOperationError · .filters) >>= (·.mapM filterFromRaw)))
      [] := by
    apply (wp_bind _ _ _ _ _).mpr
    unfold RestartSession.filters
    rw [wp_run_bind, wp_mapErr]
    apply wp_mono _ (wp_settles_getFilters session.core.handle.raw)
    intro raws s hRaws
    cases raws with
    | error error => exact ⟨rfl, .error error, hRaws, rfl⟩
    | ok raws => exact ⟨rfl, .ok raws, hRaws, rfl⟩
  cases value <;> cases method
  case session session =>
    obtain ⟨hValue, raws, hSettled⟩ := exec_recording run (hSession session)
    exact ⟨hValue, session, raws, rfl, hSettled⟩

end

end

/-! ### A denied fetch, and a list that grew -/

section

attribute [local instance] driveLetters

theorem entry_base : 4096 ≠ 0 := by decide

theorem entry_fits : 4096 + 1 * processInfoSize ≤ usizeMax := by decide

/-- The second call is denied. -/
def deniedFetch : Trace :=
  [⟨.rmGetList 3 0, ⟨ERROR_MORE_DATA, 1, 0, [], 0⟩⟩,
    ⟨.tryReserveExact 1 processInfoSize, some ⟨4096, entry_base, entry_fits⟩⟩,
    ⟨.rmGetList 3 1, ⟨ERROR_ACCESS_DENIED, 1, 0, [], 0⟩⟩]

theorem applications_settle_denied : ∃ raw, ReportSettled 3 raw deniedFetch ∧
    .applications (.error (mapOperationError (.os ERROR_ACCESS_DENIED) .report)) =
      Output.applications ((raw.mapError (mapOperationError · .report)).map applicationReport) := by
  let core : SessionCore := ⟨⟨3, false⟩, ⟨List.replicate 32 0x30, by decide⟩⟩
  have method : perform (.session ⟨core⟩) .affectedApplications =
      some (borrowing (.session ⟨core⟩) core.affectedApplications .applications) := rfl
  have run : (borrowing (.session ⟨core⟩) core.affectedApplications .applications).Exec deniedFetch
      (.session ⟨core⟩, .applications (.error (mapOperationError (.os ERROR_ACCESS_DENIED) .report))) :=
    .step (.step (.step (.refl _)))
  obtain ⟨-, _, raw, ⟨⟨⟩⟩ | ⟨_, ⟨⟩⟩, hSettled⟩ := applications_settle method run
  exact ⟨raw, hSettled⟩

/-- The list grows after the probe, and the second fetch reads both filters. -/
theorem filters_settle_grown : ∃ raws, FiltersSettled 3 raws grownFetch ∧
    .filters (.ok linkedTargets) =
      Output.filters (raws.mapError (mapOperationError · .filters) >>= (·.mapM filterFromRaw)) := by
  let session : RestartSession := ⟨⟨3, false⟩, ⟨List.replicate 32 0x30, by decide⟩⟩
  have method : perform (.session session) .filters =
      some (borrowing (.session session) session.filters .filters) := rfl
  have hRaws : (mapErr (getFilters 3) (mapOperationError · .filters)).run.Exec grownFetch
      (.ok linkedFilters) := exec_map_iff.mpr ⟨_, exec_grownFetch, rfl⟩
  have hFilters : session.filters.run.Exec grownFetch (.ok linkedTargets) :=
    exec_run_bind_iff.mpr (.inr ⟨_, [], _, (List.append_nil _).symm, hRaws, .refl _⟩)
  have run : (borrowing (.session session) session.filters .filters).Exec grownFetch
      (.session session, .filters (.ok linkedTargets)) :=
    exec_bind_iff.mpr ⟨_, [], _, (List.append_nil _).symm, hFilters, .refl _⟩
  obtain ⟨-, _, raws, ⟨⟩, hSettled⟩ := filters_settle method run
  exact ⟨raws, hSettled⟩

end

end RestartManager
