import RestartManager.Sys.FilterLayout
import RestartManager.Sys.Filters

/-! What listing the filters returns while the list changes. -/
namespace RestartManager

open Platform Interaction Resampling

section

variable [Platform]

def isFilterListCall : Call → Bool
  | .rmGetFilterList .. => true
  | _ => false

/-- The number of `RmGetFilterList` calls of a run. -/
def filterListCalls (trace : Trace) : Nat := trace.countP fun event => isFilterListCall event.1

/-- Reservations are granted, and neither they nor reads lead anywhere else. -/
structure GrantsMemory {σ : Type} (C : Contract Call.Response σ) (s : σ) : Prop where
  reserve : ∀ n size, C.guarantee s (.tryReserveExact n size) ∧
    ∀ response, C.rely s (.tryReserveExact n size) response →
      response ≠ none ∧ C.next s (.tryReserveExact n size) response = s
  read : ∀ address size, C.guarantee s (.readUnaligned address size) ∧
    ∀ response, C.next s (.readUnaligned address size) response = s

namespace GrantsMemory

variable {σ : Type} {C : Contract Call.Response σ} {s : σ}

/-- A granted buffer covers the size it was made for, and is all zero. -/
theorem wp_new (h : GrantsMemory C s) {size : UInt32}
    (hSize : size.toNat + (pointerWidth.bytes - 1) ≤ usizeMax) :
    C.wp (AlignedBuffer.new size).run (fun result s' => s' = s ∧ ∃ buffer, result = .ok buffer ∧
      size.toNat ≤ buffer.byteCapacity ∧ buffer.bytes = List.replicate buffer.byteCapacity 0) s := by
  unfold AlignedBuffer.new
  rw [usizeTryFrom_eq, pure_bind]
  dsimp only
  rw [show checkedAdd size.toNat (pointerWidth.bytes - 1) =
    some (size.toNat + (pointerWidth.bytes - 1)) from checkedAdd_eq_some.mpr ⟨hSize, rfl⟩]
  simp only [Contract.wp_run_bind]
  refine ⟨(h.reserve _ _).1, fun response hResponse => ?_⟩
  obtain ⟨hGranted, hNext⟩ := (h.reserve _ _).2 response hResponse
  rw [hNext]
  cases response with
  | none => exact absurd rfl hGranted
  | some allocation =>
      refine ⟨rfl, _, rfl, ?_, by simp [AlignedBuffer.byteCapacity]⟩
      simp only [AlignedBuffer.byteCapacity, List.length_replicate]
      unfold PointerWidth.bytes
      split <;> omega

/-- The parser decides what a buffer holds, and leads nowhere else. -/
theorem wp_parse (h : GrantsMemory C s) {buffer : AlignedBuffer} {byteLen : Nat}
    (hLen : byteLen ≤ buffer.byteCapacity) : C.wp (parseFilterBuffer buffer byteLen).run
      (fun result s' => s' = s ∧ Decides False (HoldsFilters buffer byteLen) result) s := by
  have hCall : ∀ s' (state : Unit) (c : Call), s' = s →
      (bufferContract buffer byteLen False).guarantee state c →
      C.guarantee s' c ∧ ∀ response, C.rely s' c response →
        (bufferContract buffer byteLen False).rely state c response ∧ C.next s' c response = s := by
    intro s' state c hState hGuarantee
    subst hState
    cases c <;> first | exact hGuarantee.elim | skip
    · refine ⟨(h.reserve _ _).1, fun response hResponse => ?_⟩
      obtain ⟨hGranted, hNext⟩ := (h.reserve _ _).2 response hResponse
      exact ⟨hGranted, hNext⟩
    · exact ⟨(h.read _ _).1, fun response _ => ⟨trivial, (h.read _ _).2 response⟩⟩
  have hParse := Contract.wp_simulate C hCall rfl (wp_parseFilterBuffer hLen)
  refine Contract.wp_mono _ hParse ?_
  rintro result s' ⟨_, rfl, hResult⟩
  exact ⟨rfl, hResult⟩

end GrantsMemory

namespace FilterHistory

variable {history : FilterHistory} {raw : UInt32}

/-- A list has no encoding of size zero unless it is empty. -/
theorem size_eq_zero_iff {i : Nat} : history.size i = 0 ↔ history.list i = [] := by
  refine ⟨fun hSize => ?_, history.size_nil i⟩
  by_contra hList
  have hLength := history.encode_length i 1
  have hBound := history.size_le i
  have hWord : 1 ≤ pointerWidth.bytes - 1 := by unfold PointerWidth.bytes; split <;> decide
  have chain := history.well_formed i ⟨1, history.encode i 1, by decide, by omega⟩ hList
    (List.take_of_length_le hLength.le)
  have hRecord : 0 < recordSize := by unfold recordSize; split <;> decide
  have := chain.bound
  rw [hSize] at this
  exact absurd this (by simp; omega)

theorem after_contract (trace : Trace) (n : Nat) :
    (history.contract raw).after n trace = n + filterListCalls trace := by
  have hNext : ∀ n c r, (history.contract raw).next n c r = n + (isFilterListCall c).toNat := by
    intro n c r
    cases c <;> rfl
  exact Contract.after_count hNext n trace

theorem grants (n : Nat) : GrantsMemory (history.contract raw) n :=
  ⟨fun _ _ => ⟨trivial, fun _ hResponse => ⟨hResponse, rfl⟩⟩, fun _ _ => ⟨trivial, fun _ => rfl⟩⟩

/-- What a listing returns: the first list that fits the buffer offered to it,
unless that list is empty and was fetched into a buffer. -/
inductive Listed (history : FilterHistory) : SysResult (List RawFilter) → Prop
  | fetched {i : Nat} (hi : i ≤ MAX_LIST_ATTEMPTS) (first : FirstFit history.sizes i)
      (listed : i = 0 ∨ history.list i ≠ []) : Listed history (.ok (history.list i))
  | emptied {i : Nat} (hi : i ≤ MAX_LIST_ATTEMPTS) (first : FirstFit history.sizes i)
      (probed : 0 < i) (empty : history.list i = []) {detail : String} :
      Listed history (.error (.malformedOutput detail))
  | changed (none_fits : ∀ i ≤ MAX_LIST_ATTEMPTS, ¬Fits history.sizes i) :
      Listed history (.error (.dataChanged ERROR_MORE_DATA))

theorem fits_succ_iff {i : Nat} : Fits history.sizes (i + 1) ↔ history.size (i + 1) ≤ history.size i :=
  UInt32.le_iff_toNat_le.symm

/-- A list of positive size is parsed back from its encoding. -/
theorem holdsFilters_write {buffer : AlignedBuffer} {i : Nat} (hList : history.list i ≠ [])
    (hLen : history.sizes i ≤ buffer.byteCapacity) :
    HoldsFilters (buffer.write (history.encode i buffer.base)) (history.size i).toNat
      (history.list i) := by
  have hSize : history.size i ≠ 0 := fun h => hList (size_eq_zero_iff.mp h)
  refine .inr ⟨fun h => hSize (UInt32.toNat_inj.mp h), history.well_formed i _ hList ?_⟩
  have hLength := history.encode_length i buffer.base
  unfold sizes AlignedBuffer.byteCapacity at hLen
  have hAll : (history.encode i buffer.base).take buffer.bytes.length =
      history.encode i buffer.base := List.take_of_length_le (by omega)
  simp only [AlignedBuffer.write, hAll]
  exact List.take_left' hLength

/-- The zeros of a fresh buffer are not a list of filters. -/
theorem not_holdsFilters_zeros {buffer : AlignedBuffer} {byteLen : Nat}
    (hZero : buffer.bytes = List.replicate buffer.byteCapacity 0) (hLen : byteLen ≠ 0)
    (filters : List RawFilter) : ¬HoldsFilters buffer byteLen filters := by
  have hTrigger : (buffer.recordAt 0).filterTrigger = 0 := by
    simp [AlignedBuffer.recordAt, RmFilterInfo.ofBytes, hZero]
  have hTarget (target : RawFilterTarget) :
      ¬TargetAt buffer byteLen (buffer.recordAt 0) target := by
    intro h
    cases target <;> exact absurd (hTrigger.symm.trans h.1) (by decide)
  rintro (⟨h, -⟩ | ⟨-, last | link⟩)
  · exact hLen h
  · exact hTarget _ last.target
  · exact hTarget _ link.target

/-- The fetches that are left, when no earlier call had room for the list. -/
theorem wp_fetchFilters (attempts i : Nat) (hCount : i + attempts = MAX_LIST_ATTEMPTS)
    (hNone : ∀ j ≤ i, ¬Fits history.sizes j) :
    (history.contract raw).wp (fetchFilters raw attempts (history.size i)).run
      (fun result n => n ≤ MAX_LIST_ATTEMPTS + 1 ∧ history.Listed result) (i + 1) := by
  induction attempts generalizing i with
  | zero =>
      obtain rfl : i = MAX_LIST_ATTEMPTS := by simpa using hCount
      exact ⟨le_rfl, .changed hNone⟩
  | succ attempts ih =>
      have hPos : history.size i ≠ 0 := by
        intro hZero
        have := size_pos_of_not_fits (hNone i le_rfl)
        simp [sizes, hZero] at this
      rw [fetchFilters, if_neg hPos, Contract.wp_run_bind]
      refine Contract.wp_mono _ ((grants (i + 1)).wp_new (history.size_le i)) ?_
      rintro _ _ ⟨rfl, buffer, rfl, hCapacity, hZero⟩
      dsimp only
      rw [Contract.wp_run_bind, wp_sysCall]
      refine ⟨⟨rfl, by omega⟩, fun reply ⟨hNeeded, hReply⟩ => ?_⟩
      change Contract.wp _ _ _ (i + 1 + 1)
      by_cases hFit : history.size (i + 1) ≤ history.size i
      · rw [if_pos hFit] at hReply
        obtain ⟨hCode, hWritten⟩ := hReply
        have hFirst : FirstFit history.sizes (i + 1) :=
          ⟨fits_succ_iff.mpr hFit, fun j hj => hNone j (by omega)⟩
        rw [hCode, if_neg (by decide), Contract.wp_run_bind, wp_ofResult, hNeeded,
          hWritten buffer.base rfl]
        dsimp only [check]
        rw [if_pos rfl]
        dsimp only
        by_cases hEmpty : history.size (i + 1) = 0
        · rw [if_pos hEmpty, if_neg (UInt32.lt_irrefl _)]
          refine Contract.wp_mono _ ((grants _).wp_parse (by simpa [sizes] using hCapacity)) ?_
          have hEncoded : history.encode (i + 1) buffer.base = [] :=
            List.length_eq_zero_iff.mp ((history.encode_length _ _).trans (by simp [hEmpty]))
          rw [hEncoded, AlignedBuffer.write_nil]
          rintro _ _ ⟨rfl, h | hNothing | hFail⟩
          · exact absurd h (not_holdsFilters_zeros hZero (fun h => hPos (UInt32.toNat_inj.mp h)) _)
          · exact ⟨by omega, .emptied (by omega) hFirst (by omega) (size_eq_zero_iff.mp hEmpty)⟩
          · exact hFail.elim
        · rw [if_neg hEmpty, if_neg (UInt32.not_lt.mpr hFit)]
          have hList : history.list (i + 1) ≠ [] := fun h => hEmpty (history.size_nil _ h)
          have hLen : history.sizes (i + 1) ≤ buffer.byteCapacity :=
            (UInt32.le_iff_toNat_le.mp hFit).trans hCapacity
          have hHolds := holdsFilters_write hList hLen
          refine Contract.wp_mono _ ((grants _).wp_parse (by simpa [sizes] using hLen)) ?_
          rintro _ _ ⟨rfl, h | hNothing | hFail⟩
          · rw [h.unique hHolds]
            exact ⟨by omega, .fetched (by omega) hFirst (.inr hList)⟩
          · exact absurd hHolds (hNothing _)
          · exact hFail.elim
      · rw [if_neg hFit] at hReply
        rw [hReply, if_pos rfl, hNeeded]
        refine ih (i + 1) (by omega) fun j hj => ?_
        rcases Nat.lt_or_eq_of_le hj with h | h
        · exact hNone j (by omega)
        · rwa [h, fits_succ_iff]

theorem wp_getFilters : (history.contract raw).wp (getFilters raw).run
    (fun result n => n ≤ MAX_LIST_ATTEMPTS + 1 ∧ history.Listed result) 0 := by
  rw [getFilters, Contract.wp_run_bind, wp_sysCall]
  refine ⟨⟨rfl, by omega⟩, fun first ⟨hNeeded, hFirst⟩ => ?_⟩
  change Contract.wp _ _ _ 1
  by_cases hEmpty : history.size 0 = 0
  · rw [if_pos (by rw [hEmpty]; exact UInt32.le_refl 0)] at hFirst
    have hFit : FirstFit history.sizes 0 :=
      ⟨fits_zero_iff.mpr (by simp [sizes, hEmpty]), fun j hj => absurd hj j.not_lt_zero⟩
    rw [if_pos ⟨hFirst.1, hNeeded.trans hEmpty⟩, ← size_eq_zero_iff.mp hEmpty]
    exact ⟨by omega, .fetched (by omega) hFit (.inl rfl)⟩
  · have hFit : ¬Fits history.sizes 0 := by
      rw [fits_zero_iff]
      exact fun h => hEmpty (UInt32.toNat_inj.mp h)
    have hMore : ¬history.size 0 ≤ 0 := fun h => hFit (UInt32.le_iff_toNat_le.mp h)
    rw [if_neg hMore] at hFirst
    rw [hFirst, if_neg (fun h => absurd h.1 (by decide)), if_neg (fun h => h.2 rfl), hNeeded]
    refine wp_fetchFilters MAX_LIST_ATTEMPTS 0 rfl fun j hj => ?_
    obtain rfl : j = 0 := by omega
    exact hFit

end FilterHistory

/-- A run of the listing returned a snapshot: it made at most nine calls, it
returned the first list that fit, and it gave up exactly when none did. -/
structure ReturnsFilterSnapshot (history : FilterHistory) (trace : Trace)
    (result : SysResult (List RawFilter)) : Prop where
  calls : filterListCalls trace ≤ 9
  snapshot : ∀ i ≤ 8, FirstFit history.sizes i → result = .ok (history.list i)
  gives_up : result = .error (.dataChanged ERROR_MORE_DATA) ↔ ∀ i ≤ 8, ¬Fits history.sizes i

/-- A listing returns a snapshot exactly when the list it would have to return
is not one that became empty after the probe. -/
theorem getFilters_snapshot_iff {history : FilterHistory} {raw : UInt32} {trace : Trace}
    {result : SysResult (List RawFilter)} (run : (getFilters raw).run.Exec trace result)
    (hNative : (history.contract raw).Conforms 0 trace) :
    ReturnsFilterSnapshot history trace result ↔
      ∀ i, 0 < i → i ≤ 8 → FirstFit history.sizes i → history.list i ≠ [] := by
  obtain ⟨-, hAfter, hListed⟩ := Contract.wp_exec _ run FilterHistory.wp_getFilters hNative
  rw [FilterHistory.after_contract, Nat.zero_add] at hAfter
  constructor
  · intro hSnapshot i hPos hi hFirst hEmpty
    have hResult := hSnapshot.snapshot i hi hFirst
    cases hListed with
    | @fetched j _ hj hList =>
        obtain rfl := hj.unique hFirst
        rcases hList with rfl | hList
        · exact absurd hPos (lt_irrefl 0)
        · exact hList hEmpty
    | emptied => cases hResult
    | changed => cases hResult
  · intro hNonempty
    cases hListed with
    | @fetched j hj first listed =>
        refine ⟨hAfter, fun i _ hi => by rw [hi.unique first], by simp, fun hNone => ?_⟩
        exact absurd first.1 (hNone j hj)
    | @emptied j hj first probed empty => exact absurd empty (hNonempty j probed hj first)
    | changed none_fits =>
        exact ⟨hAfter, fun i hi hFirst => absurd hFirst.1 (none_fits i hi), fun _ => none_fits,
          fun _ => rfl⟩

end

/-! ### A list that changes after the probe -/

section

attribute [local instance] driveLetters

/-- One process filter at the probe. From the first fetch on there are two
filters, or none. -/
def changingHistory (grows : Bool) : FilterHistory where
  list i := if i = 0 then [⟨.process ⟨7, 5⟩, 1⟩] else if grows then linkedFilters else []
  size i := if i = 0 then 32 else if grows then 69 else 0
  encode i base := if i = 0 then processRecord else if grows then linkedBytes base else []
  encode_length i base := by
    split
    · rfl
    split
    · exact serviceBytes_length _ base
    · rfl
  size_le i := by split <;> [decide; (split <;> decide)]
  size_nil i := by split <;> [simp; (split <;> simp [linkedFilters])]
  well_formed i buffer hList hBytes := by
    have hLen : ∀ {n} {bytes : List UInt8}, buffer.bytes.take n = bytes → bytes.length = n →
        n ≤ buffer.byteCapacity := by
      rintro n _ rfl hLength
      exact hLength ▸ List.length_take_le' n buffer.bytes
    rcases Nat.eq_zero_or_pos i with rfl | hPos
    · have hBytes : buffer.bytes.take 32 = processRecord := hBytes
      exact (storesChain_processRecord hBytes).filterChain (hLen hBytes rfl)
        (by simp [RawFilterTarget.NulFree])
    · cases grows with
      | false => simp [hPos.ne'] at hList
      | true =>
          simp only [hPos.ne', if_true, if_false] at hBytes ⊢
          have hLength : (linkedBytes buffer.base).length = 69 := serviceBytes_length _ _
          exact (storesChain_linkedBytes hBytes).filterChain (hLen hBytes hLength)
            (by simp [linkedFilters, RawFilterTarget.NulFree])

/-- A fetch of both filters. -/
def linkedFetch : Trace :=
  [⟨.tryReserveExact 9 8, some ⟨4096, Nat.succ_ne_zero _, Nat.le_of_ble_eq_true rfl⟩⟩,
    ⟨.rmGetFilterList 3 (some 4096) 69, ⟨ERROR_SUCCESS, 69, linkedBytes 4096⟩⟩] ++ linkedReads

/-- The probe, a buffer of 32 bytes that is too small by now, and the fetch. -/
def grownFetch : Trace :=
  [⟨.rmGetFilterList 3 none 0, ⟨ERROR_MORE_DATA, 32, []⟩⟩,
    ⟨.tryReserveExact 4 8, some ⟨12288, Nat.succ_ne_zero _, Nat.le_of_ble_eq_true rfl⟩⟩,
    ⟨.rmGetFilterList 3 (some 12288) 32, ⟨ERROR_MORE_DATA, 69, []⟩⟩] ++ linkedFetch

/-- A fresh buffer of nine words that both records were written to. -/
theorem exec_write_linkedBytes (h : 4096 ≠ 0) (h' : 4096 + (List.replicate 72 0).length ≤ usizeMax) :
    (parseFilterBuffer (.write ⟨4096, List.replicate 72 0, h, h'⟩ (linkedBytes 4096)) 69).run.Exec
      linkedReads (.ok linkedFilters) := by
  have hBytes : (linkedBytes 4096).take 72 ++ (List.replicate 72 0).drop (linkedBytes 4096).length =
    linkedBytes 4096 ++ [0, 0, 0] := by decide
  have hWrite : AlignedBuffer.write ⟨4096, List.replicate 72 0, h, h'⟩ (linkedBytes 4096) =
      linkedFilterBuffer := by
    simp only [AlignedBuffer.write, linkedFilterBuffer, List.length_replicate, hBytes]
  rw [hWrite]
  exact exec_linkedFilterBuffer

set_option maxRecDepth 4000 in
theorem exec_linkedFetch (attempts : Nat) :
    (fetchFilters 3 (attempts + 1) 69).run.Exec linkedFetch (.ok linkedFilters) := by
  refine .step ?_
  refine .step ?_
  exact exec_write_linkedBytes _ _

theorem exec_grownFetch : (getFilters 3).run.Exec grownFetch (.ok linkedFilters) := by
  refine .step ?_
  refine .step ?_
  refine .step ?_
  exact exec_linkedFetch 6

/-- The filters grow between the probe and the first fetch, and the second
fetch returns both as they then are. -/
theorem getFilters_snapshot_iff_grown :
    ReturnsFilterSnapshot (changingHistory true) grownFetch (.ok linkedFilters) := by
  have hNative : ((changingHistory true).contract 3).Conforms 0 grownFetch := by
    refine ⟨⟨rfl, rfl⟩, Option.some_ne_none _, ⟨rfl, rfl⟩, Option.some_ne_none _, ⟨rfl, rfl, ?_⟩,
      trivial, Option.some_ne_none _, trivial, trivial, trivial, trivial⟩
    rintro base ⟨⟩
    rfl
  refine (getFilters_snapshot_iff exec_grownFetch hNative).mpr ?_
  rintro (_ | i) hPos _ _
  · cases hPos
  · simp [changingHistory, linkedFilters]

/-- A list that is emptied between the probe and the fetch is reported as
malformed output, since the zeroed buffer is parsed at its full length. -/
theorem getFilters_emptied : ∃ trace result,
    (getFilters 3).run.Exec trace result ∧
      ((changingHistory false).contract 3).Conforms 0 trace ∧
      result = .error (.malformedOutput "filter buffer contains an unknown trigger") ∧
      ¬ReturnsFilterSnapshot (changingHistory false) trace result := by
  refine ⟨[⟨.rmGetFilterList 3 none 0, ⟨ERROR_MORE_DATA, 32, []⟩⟩,
    ⟨.tryReserveExact 4 8, some ⟨4096, Nat.succ_ne_zero _, Nat.le_of_ble_eq_true rfl⟩⟩,
    ⟨.rmGetFilterList 3 (some 4096) 32, ⟨ERROR_SUCCESS, 0, []⟩⟩,
    ⟨.readUnaligned 4096 32, ()⟩], _, ?_, ?_, rfl, ?_⟩
  · refine .step ?_
    refine .step ?_
    refine .step ?_
    change (parseFilterBuffer ⟨4096, List.replicate 32 0, by decide, by decide⟩ 32).run.Exec _ _
    unfold parseFilterBuffer
    rw [if_neg (by decide), if_neg (by decide), if_neg (by decide)]
    change (parseRecords _ _ _ _ _ _).run.Exec _ _
    rw [parseRecords]
    exact .step (.refl _)
  · exact ⟨⟨rfl, rfl⟩, Option.some_ne_none _, ⟨rfl, rfl, fun base _ => rfl⟩, trivial, trivial⟩
  · intro hSnapshot
    have hFirst : FirstFit (changingHistory false).sizes 1 := ⟨by decide, by decide⟩
    cases hSnapshot.snapshot 1 (by decide) hFirst

end
end RestartManager
