import RestartManager.Sys.FilterLayout
import RestartManager.Sys.FilterSnapshot
import RestartManager.Sys.Handle

/-! The filters that Windows keeps for a session: a table that the native calls
change and list. How the table is stored, in which order it is listed and
where its strings are put are left to Windows. -/
namespace RestartManager

open Platform Interaction Contract Resampling

deriving instance DecidableEq for FilterPointers

/-- What a session filters, by what its pointers point to. -/
abbrev NativeTable := FilterPointers → Option Int32

/-! ### Pointers -/

theorem WideString.new_injective : Function.Injective WideString.new := by
  intro value value' h
  obtain ⟨units⟩ := value
  obtain ⟨units'⟩ := value'
  have hBuffer := congrArg WideString.buffer h
  obtain rfl : units = units' := List.append_cancel_right hBuffer
  rfl

theorem nativeUniqueProcess_injective : Function.Injective nativeUniqueProcess := by
  intro value value' h
  rw [← rawUniqueProcess_nativeUniqueProcess value, h, rawUniqueProcess_nativeUniqueProcess]

/-- No two targets have the same pointers. -/
theorem FilterPointers.new_injective : Function.Injective FilterPointers.new := by
  intro target target' h
  cases target <;> cases target' <;>
    simp only [FilterPointers.new, FilterPointers.mk.injEq, Option.some.injEq, reduceCtorEq, and_true,
      true_and, and_false] at h
  · rw [WideString.new_injective h]
  · rw [nativeUniqueProcess_injective h]
  · rw [WideString.new_injective h]

variable [Platform]

/-! ### The store -/

/-- A store that Windows may have. It may refuse a filter, and then keeps the
table it has. -/
structure FilterStore where
  State : Type
  table : State → NativeTable
  Accepts : State → FilterPointers → Int32 → Prop
  add : State → FilterPointers → Int32 → State
  remove : State → FilterPointers → State
  table_add : ∀ s pointers action, Accepts s pointers action →
    table (add s pointers action) = Function.update (table s) pointers (some action)
  table_remove : ∀ s pointers, table (remove s pointers) = Function.update (table s) pointers none
  list : State → List RawFilter
  mem_list : ∀ s raw, raw ∈ list s ↔ table s (.new raw.target) = some raw.action
  list_nodup : ∀ s, ((list s).map RawFilter.target).Nodup
  size : State → UInt32
  size_le : ∀ s, (size s).toNat + (pointerWidth.bytes - 1) ≤ usizeMax
  size_nil : ∀ s, list s = [] → size s = 0
  encode : State → Nat → List UInt8
  encode_length : ∀ s base, (encode s base).length = (size s).toNat
  stored : ∀ s (buffer : AlignedBuffer), list s ≠ [] →
    (∀ raw ∈ list s, raw.target.NulFree) → buffer.bytes.take (size s).toNat = encode s buffer.base →
    StoresChain buffer (size s).toNat 0 (list s)

namespace FilterStore

variable (store : FilterStore)

/-- What `RmGetFilterList` answers, unless it fails. -/
def Answers (s : store.State) (buffer : Option Nat) (supplied : UInt32) (reply : GetFilterListReply) :
    Prop :=
  reply.needed = store.size s ∧
    if store.size s ≤ supplied then
      reply.code = ERROR_SUCCESS ∧ ∀ base, buffer = some base → reply.written = store.encode s base
    else reply.code = ERROR_MORE_DATA

/-- A listing failed with this code. -/
def ListingFailure (code : UInt32) : Prop := code ≠ ERROR_SUCCESS ∧ code ≠ ERROR_MORE_DATA

/-- Windows answers from the store, and every reservation is granted. Any call
may fail. One that succeeds accepted the filter, removed one that was there,
or answered with the list, and a filter is not reported missing unless it is. -/
def contract : Contract Call.Response store.State where
  guarantee _ _ := True
  rely s c := match c with
    | .rmAddFilter _ filename process service action => fun code =>
        code = ERROR_SUCCESS → store.Accepts s ⟨filename, process, service⟩ action
    | .rmRemoveFilter _ filename process service => fun code =>
        (code = ERROR_SUCCESS → store.table s ⟨filename, process, service⟩ ≠ none) ∧
          (code = ERROR_FILE_NOT_FOUND → store.table s ⟨filename, process, service⟩ = none)
    | .rmGetFilterList _ buffer supplied => fun reply =>
        ListingFailure reply.code ∨ store.Answers s buffer supplied reply
    | .tryReserveExact .. => fun response => response ≠ none
    | _ => fun _ => True
  next s c := match c with
    | .rmAddFilter _ filename process service action => fun code =>
        if code = ERROR_SUCCESS then store.add s ⟨filename, process, service⟩ action else s
    | .rmRemoveFilter _ filename process service => fun code =>
        if code = ERROR_SUCCESS then store.remove s ⟨filename, process, service⟩ else s
    | _ => fun _ => s

variable {store} {s : store.State}

/-- While nothing changes, the store is the history of one list. -/
def history (s : store.State) (hNul : ∀ raw ∈ store.list s, raw.target.NulFree) : FilterHistory where
  list _ := store.list s
  size _ := store.size s
  encode _ := store.encode s
  encode_length _ := store.encode_length s
  size_le _ := store.size_le s
  size_nil _ := store.size_nil s
  well_formed _ buffer hList hBytes := by
    have hLength := store.encode_length s buffer.base
    rw [← hBytes, List.length_take] at hLength
    have hLen : (store.size s).toNat ≤ buffer.byteCapacity := by
      unfold AlignedBuffer.byteCapacity
      omega
    exact (store.stored s buffer hList hNul hBytes).filterChain hLen hNul

theorem grants (s : store.State) : GrantsMemory store.contract s :=
  ⟨fun _ _ => ⟨trivial, fun _ hResponse => ⟨hResponse, rfl⟩⟩, fun _ _ => ⟨trivial, fun _ => rfl⟩⟩

/-- What a listing returns: the list of the store, or the code it failed with. -/
def ListedFrom (s : store.State) (result : SysResult (List RawFilter)) : Prop :=
  result = .ok (store.list s) ∨ ∃ code, ListingFailure code ∧ result = .error (.os code)

/-- A fetch into a buffer of the size that the store asks for. -/
theorem wp_fetchFilters {raw : UInt32} (hNul : ∀ raw ∈ store.list s, raw.target.NulFree)
    (hSize : store.size s ≠ 0) {attempts : Nat} :
    store.contract.wp (fetchFilters raw (attempts + 1) (store.size s)).run
      (fun result s' => s' = s ∧ ListedFrom s result) s := by
  have hList : store.list s ≠ [] := fun h => hSize (store.size_nil s h)
  rw [fetchFilters, if_neg hSize, wp_run_bind]
  apply wp_mono _ ((grants s).wp_new (store.size_le s))
  rintro _ s' ⟨hState, buffer, rfl, hCapacity, -⟩
  dsimp only
  rw [hState, wp_run_bind, wp_sysCall]
  refine ⟨trivial, fun reply hReply => ?_⟩
  change wp _ _ _ _
  rcases hReply with ⟨hFailed, hOther⟩ | ⟨hNeeded, hAnswer⟩
  · rw [if_neg hOther, wp_run_bind, wp_ofResult, check, if_neg hFailed]
    exact ⟨rfl, .inr ⟨_, ⟨hFailed, hOther⟩, rfl⟩⟩
  · rw [if_pos (UInt32.le_refl _)] at hAnswer
    obtain ⟨hCode, hWritten⟩ := hAnswer
    rw [hCode, if_neg (by decide), wp_run_bind, wp_ofResult, hNeeded, hWritten buffer.base rfl, check,
      if_pos rfl]
    dsimp only
    rw [if_neg hSize, if_neg (UInt32.lt_irrefl _)]
    have hHolds := @FilterHistory.holdsFilters_write _ (history s hNul) _ 0 hList hCapacity
    apply wp_mono _ ((grants s).wp_parse (by simpa using hCapacity))
    rintro _ _ ⟨rfl, h | hNothing | hFail⟩
    · exact ⟨rfl, .inl (congrArg _ (h.unique hHolds))⟩
    · exact absurd hHolds (hNothing _)
    · exact hFail.elim

/-- A listing returns what the store lists, or fails and changes nothing. -/
theorem wp_getFilters (raw : UInt32) (hNul : ∀ raw ∈ store.list s, raw.target.NulFree) :
    store.contract.wp (getFilters raw).run (fun result s' => s' = s ∧ ListedFrom s result) s := by
  rw [getFilters, wp_run_bind, wp_sysCall]
  refine ⟨trivial, fun first hFirst => ?_⟩
  change wp _ _ _ s
  rcases hFirst with ⟨hFailed, hOther⟩ | ⟨hNeeded, hAnswer⟩
  · rw [if_neg (fun h => hFailed h.1), if_pos ⟨hFailed, hOther⟩]
    exact ⟨rfl, .inr ⟨_, ⟨hFailed, hOther⟩, rfl⟩⟩
  by_cases hEmpty : store.size s = 0
  · rw [if_pos (by rw [hEmpty]; exact UInt32.le_refl 0)] at hAnswer
    rw [if_pos ⟨hAnswer.1, hNeeded.trans hEmpty⟩]
    have hNil : store.list s = [] :=
      (@FilterHistory.size_eq_zero_iff _ (history s hNul) 0).mp hEmpty
    exact ⟨rfl, .inl (congrArg _ hNil.symm)⟩
  · have hMore : ¬store.size s ≤ 0 := fun h => hEmpty (UInt32.toNat_inj.mp (Nat.le_zero.mp h))
    rw [if_neg hMore] at hAnswer
    rw [hAnswer, if_neg (fun h => absurd h.1 (by decide)), if_neg (fun h => h.2 rfl), hNeeded]
    exact wp_fetchFilters hNul hEmpty

end FilterStore
end RestartManager
