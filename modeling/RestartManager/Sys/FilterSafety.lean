import RestartManager.Sys.Filters

/-! The parser of the filter buffer is safe on every input: whatever bytes,
lengths and addresses it is given, it reads inside the buffer, its arithmetic
stays in range, and it comes to an end. -/
namespace RestartManager

open Platform Interaction

section

variable [Platform]

/-! ### Reads -/

/-- The error for a length that the allocation does not hold. -/
def exceedsAllocation : SysError := .malformedOutput "filter buffer length exceeds its allocation"

/-- The result is not that error. -/
def Fitting {α : Type} : SysResult α → Prop
  | .ok _ => True
  | .error error => error ≠ exceedsAllocation

/-- What a parse asks for. The state is the number of records read so far. -/
def readContract (buffer : AlignedBuffer) (byteLen : Nat) : Contract Call.Response Nat where
  guarantee n c := match c with
    | .readUnaligned address length =>
        (buffer.base ≤ address ∧ address + length ≤ buffer.base + byteLen) ∧
          (length = 2 ∨ (length = recordSize ∧ n < byteLen / recordSize))
    | .tryReserveExact count size => size = 2 ∧ count ≤ byteLen / 2
    | _ => False
  rely _ _ _ := True
  next n c _ := match c with
    | .readUnaligned _ length => if length = recordSize then n + 1 else n
    | _ => n

theorem recordSize_pos : 0 < recordSize := by
  unfold recordSize
  split <;> decide

theorem recordSize_ne_two : recordSize ≠ 2 := by
  unfold recordSize
  split <;> decide

theorem wordSize_ne_two : pointerWidth.bytes ≠ 2 := by
  unfold PointerWidth.bytes
  split <;> decide

section Parser

variable {buffer : AlignedBuffer} {byteLen stop : Nat}

omit [Platform] in
theorem malformed_ne {detail : String}
    (h : detail ≠ "filter buffer length exceeds its allocation") :
    SysError.malformedOutput detail ≠ exceedsAllocation := fun hEq => h (SysError.malformedOutput.inj hEq)

/-- The inner loop reads units, and no record. -/
theorem reads_readUnits (hStop : stop = buffer.base + byteLen) (n cursor : Nat)
    (hBase : buffer.base ≤ cursor) (units : List UInt16) :
    (readContract buffer byteLen).wp (readUnits buffer stop cursor units).run
      (fun result n' => n' = n ∧ Fitting result) n := by
  induction cursor, units using readUnits.induct buffer stop with
  | case1 cursor units hAdd =>
      rw [readUnits_overflow hAdd]
      exact ⟨rfl, malformed_ne (by decide)⟩
  | case2 cursor units unitEnd hAdd hEnd =>
      rw [readUnits_outside hAdd hEnd]
      exact ⟨rfl, malformed_ne (by decide)⟩
  | case3 cursor units unitEnd hAdd hEnd ih =>
      rw [readUnits_inside hAdd hEnd]
      obtain ⟨-, rfl⟩ := checkedAdd_eq_some.mp hAdd
      rw [Contract.wp_run_bind, wp_sysCall]
      refine ⟨⟨⟨hBase, by omega⟩, .inl rfl⟩, fun _ _ => ?_⟩
      have hSame : (readContract buffer byteLen).next n (.readUnaligned cursor 2) () = n :=
        if_neg recordSize_ne_two.symm
      rw [hSame]
      dsimp only
      split
      · exact ⟨rfl, trivial⟩
      · exact ih (by omega)

/-- The string is read within its bounds, and no record with it. -/
theorem reads_readBufferString (hStop : stop = buffer.base + byteLen) (hMax : stop ≤ usizeMax)
    (n pointer : Nat) :
    (readContract buffer byteLen).wp (readBufferString buffer pointer buffer.base stop).run
      (fun result n' => n' = n ∧ Fitting result) n := by
  unfold readBufferString
  dsimp only
  split_ifs with hRange hAligned
  · exact ⟨rfl, malformed_ne (by decide)⟩
  · exact ⟨rfl, malformed_ne (by decide)⟩
  · rw [Contract.wp_run_bind, wp_sysCall]
    have hSub : wrappingSub stop pointer = stop - pointer := wrappingSub_eq (by omega) hMax
    refine ⟨⟨rfl, ?_⟩, fun response _ => ?_⟩
    · rw [hSub]
      exact Nat.div_le_div_right (by omega)
    · cases response with
      | none => exact ⟨rfl, (by intro h; cases h)⟩
      | some allocation =>
          dsimp only
          rw [Contract.wp_run_bind]
          apply Contract.wp_mono _ (reads_readUnits hStop n pointer (by omega) [])
          intro result n' hResult
          cases result with
          | ok units => exact ⟨hResult.1, trivial⟩
          | error error => exact hResult

/-- The target of a record is read within the bounds of the buffer. -/
theorem reads_readTarget (hStop : stop = buffer.base + byteLen) (hMax : stop ≤ usizeMax) (n : Nat)
    (record : RmFilterInfo) :
    (readContract buffer byteLen).wp (readTarget buffer record buffer.base stop).run
      (fun result n' => n' = n ∧ Fitting result) n := by
  have hString (pointer : Nat) (target : OsString → RawFilterTarget) :
      (readContract buffer byteLen).wp
        (do return target (← readBufferString buffer pointer buffer.base stop) :
          SysM RawFilterTarget).run
        (fun result n' => n' = n ∧ Fitting result) n := by
    rw [Contract.wp_run_bind]
    apply Contract.wp_mono _ (reads_readBufferString hStop hMax n pointer)
    intro result n' hResult
    cases result with
    | ok value => exact ⟨hResult.1, trivial⟩
    | error error => exact hResult
  unfold readTarget
  split_ifs
  · exact hString _ _
  · exact ⟨rfl, trivial⟩
  · exact hString _ _
  · exact ⟨rfl, malformed_ne (by decide)⟩

/-- The records read so far fit before the offset of the next one. -/
theorem reads_parseRecords (hStop : stop = buffer.base + byteLen) (hMax : stop ≤ usizeMax)
    (n offset : Nat) (hCount : n * recordSize ≤ offset) (filters : List RawFilter) :
    (readContract buffer byteLen).wp
      (parseRecords buffer byteLen buffer.base stop offset filters).run
      (fun result _ => Fitting result) n := by
  induction offset, filters using parseRecords.induct buffer byteLen generalizing n with
  | case1 offset filters hAdd =>
      rw [parseRecords_overflow hAdd]
      exact malformed_ne (by decide)
  | case2 offset filters recordEnd hAdd hEnd =>
      rw [parseRecords_outside hAdd hEnd]
      exact malformed_ne (by decide)
  | case3 offset filters recordEnd hAdd hEnd ih =>
      rw [parseRecords_inside hAdd hEnd]
      obtain ⟨-, rfl⟩ := checkedAdd_eq_some.mp hAdd
      rw [Contract.wp_run_bind, wp_sysCall]
      have hRoom : n + 1 ≤ byteLen / recordSize := by
        rw [Nat.le_div_iff_mul_le recordSize_pos, Nat.succ_mul]
        omega
      refine ⟨⟨⟨by omega, by omega⟩, .inr ⟨rfl, hRoom⟩⟩, fun _ _ => ?_⟩
      have hNextCount : (readContract buffer byteLen).next n
          (.readUnaligned (buffer.base + offset) recordSize) () = n + 1 := if_pos rfl
      rw [hNextCount]
      dsimp only
      rw [Contract.wp_run_bind]
      apply Contract.wp_mono _ (reads_readTarget hStop hMax (n + 1) _)
      intro result n' hResult
      obtain ⟨rfl, hError⟩ := hResult
      cases result with
      | error error => exact hError
      | ok target =>
          dsimp only
          split
          · exact trivial
          · rw [usizeTryFrom_eq, pure_bind]
            split
            · exact malformed_ne (by decide)
            · rename_i hNext
              split
              · exact malformed_ne (by decide)
              · rename_i offset' hOffset
                obtain ⟨-, rfl⟩ := checkedAdd_eq_some.mp hOffset
                apply ih target _ hNext _ hOffset
                rw [Nat.succ_mul]
                omega

/-- A length that the allocation holds is parsed inside it. -/
theorem reads_parseFilterBuffer (hLen : byteLen ≤ buffer.byteCapacity) :
    (readContract buffer byteLen).wp (parseFilterBuffer buffer byteLen).run
      (fun result _ => Fitting result) 0 := by
  have hBound := buffer.base_add_le
  unfold AlignedBuffer.byteCapacity at hLen
  unfold parseFilterBuffer
  split_ifs with hZero hCapacity hRecord
  · exact trivial
  · exact absurd hLen (by simpa [AlignedBuffer.byteCapacity] using hCapacity)
  · exact malformed_ne (by decide)
  · dsimp only
    have hStop : checkedAdd buffer.base byteLen = some (buffer.base + byteLen) :=
      checkedAdd_eq_some.mpr ⟨by omega, rfl⟩
    rw [hStop]
    exact reads_parseRecords rfl (by omega) 0 0 (by simp) []

end Parser

/-! ### The buffer that is lent to Windows -/

/-- What a listing asks for. The state is the block of words last allocated, by
its base and its bytes; strings are reserved in units of two bytes. -/
def lendContract : Contract Call.Response (Option (Nat × Nat)) where
  guarantee s c := match c with
    | .rmGetFilterList _ (some base) supplied =>
        ∃ capacity, s = some (base, capacity) ∧ supplied.toNat ≤ capacity
    | .rmGetFilterList _ none supplied => supplied = 0
    | .readUnaligned address length =>
        ∃ base capacity, s = some (base, capacity) ∧ base ≤ address ∧ address + length ≤ base + capacity
    | .tryReserveExact _ _ => True
    | _ => False
  rely _ _ _ := True
  next s c := match c with
    | .tryReserveExact count size => fun reply =>
        if size = pointerWidth.bytes then reply.map fun allocation => (allocation.base, count * size)
        else s
    | _ => fun _ => s

/-- The block of words that a run allocated last. -/
def lentBlock (trace : Trace) : Option (Nat × Nat) := lendContract.after none trace

/-- A new buffer covers the length it was made for. -/
theorem lends_new (needed : UInt32) (s : Option (Nat × Nat)) :
    lendContract.wp (AlignedBuffer.new needed).run
      (fun result s' => Fitting result ∧ ∀ buffer, result = .ok buffer →
        s' = some (buffer.base, buffer.byteCapacity) ∧ needed.toNat ≤ buffer.byteCapacity) s := by
  unfold AlignedBuffer.new
  rw [usizeTryFrom_eq, pure_bind]
  dsimp only
  split
  · refine ⟨(by intro h; cases h), fun buffer h => ?_⟩
    cases h
  · rename_i padded hPadded
    obtain ⟨-, rfl⟩ := checkedAdd_eq_some.mp hPadded
    rw [Contract.wp_run_bind, wp_sysCall]
    refine ⟨trivial, fun response _ => ?_⟩
    cases response with
    | none =>
        refine ⟨(by intro h; cases h), fun buffer h => ?_⟩
        cases h
    | some allocation =>
        refine ⟨trivial, fun buffer h => ?_⟩
        obtain rfl := Except.ok.inj h
        simp only [AlignedBuffer.byteCapacity, List.length_replicate]
        refine ⟨if_pos rfl, ?_⟩
        unfold PointerWidth.bytes
        split <;> omega

/-- The parser keeps to the buffer that was lent. -/
theorem lends_parse {buffer : AlignedBuffer} {byteLen : Nat} (hLen : byteLen ≤ buffer.byteCapacity) :
    lendContract.wp (parseFilterBuffer buffer byteLen).run (fun result _ => Fitting result)
      (some (buffer.base, buffer.byteCapacity)) := by
  have hCall : ∀ (s : Option (Nat × Nat)) (n : Nat) (c : Call),
      s = some (buffer.base, buffer.byteCapacity) → (readContract buffer byteLen).guarantee n c →
      lendContract.guarantee s c ∧ ∀ response, lendContract.rely s c response →
        (readContract buffer byteLen).rely n c response ∧
          lendContract.next s c response = some (buffer.base, buffer.byteCapacity) := by
    intro s n c hState hGuarantee
    subst hState
    cases c with
    | readUnaligned address length =>
        obtain ⟨⟨hBase, hEnd⟩, -⟩ := hGuarantee
        exact ⟨⟨_, _, rfl, hBase, by omega⟩, fun response _ => ⟨trivial, rfl⟩⟩
    | tryReserveExact count size =>
        obtain ⟨rfl, -⟩ := hGuarantee
        exact ⟨trivial, fun response _ => ⟨trivial, if_neg wordSize_ne_two.symm⟩⟩
    | _ => exact hGuarantee.elim
  have hParse := Contract.wp_simulate lendContract hCall rfl (reads_parseFilterBuffer hLen)
  apply Contract.wp_mono _ hParse
  intro result s' hResult
  obtain ⟨n, -, hFitting⟩ := hResult
  exact hFitting

/-- Every fetch parses no more than the buffer that it lent. -/
theorem lends_fetchFilters (raw : UInt32) (attempts : Nat) (needed : UInt32) (s : Option (Nat × Nat)) :
    lendContract.wp (fetchFilters raw attempts needed).run (fun result _ => Fitting result) s := by
  induction attempts generalizing needed s with
  | zero =>
      intro h
      cases h
  | succ attempts ih =>
      rw [fetchFilters]
      split
      · trivial
      rw [Contract.wp_run_bind]
      apply Contract.wp_mono _ (lends_new needed s)
      intro result s' hResult
      obtain ⟨hFitting, hBuffer⟩ := hResult
      cases result with
      | error error => exact hFitting
      | ok buffer =>
          obtain ⟨rfl, hCovers⟩ := hBuffer buffer rfl
          dsimp only
          rw [Contract.wp_run_bind, wp_sysCall]
          refine ⟨⟨_, rfl, hCovers⟩, fun reply _ => ?_⟩
          change lendContract.wp _ _ (some (buffer.base, buffer.byteCapacity))
          split
          · exact ih _ _
          rw [Contract.wp_run_bind, wp_ofResult]
          cases hCode : check reply.code with
          | error error =>
              unfold check at hCode
              split at hCode
              · cases hCode
              · cases hCode
                intro h
                cases h
          | ok value =>
              dsimp only
              split_ifs with hZero hLarge hLarge
              · exact malformed_ne (by decide)
              · rw [← AlignedBuffer.byteCapacity_write buffer reply.written]
                apply lends_parse
                rwa [AlignedBuffer.byteCapacity_write]
              · exact malformed_ne (by decide)
              · rw [← AlignedBuffer.byteCapacity_write buffer reply.written]
                apply lends_parse
                rw [AlignedBuffer.byteCapacity_write]
                have hSupplied := UInt32.le_iff_toNat_le.mp (UInt32.not_lt.mp hLarge)
                omega

/-- No listing parses more than it lent, from the size probe on. -/
theorem lends_getFilters (raw : UInt32) :
    lendContract.wp (getFilters raw).run (fun result _ => Fitting result) none := by
  unfold getFilters
  rw [Contract.wp_run_bind, wp_sysCall]
  refine ⟨rfl, fun first _ => ?_⟩
  dsimp only
  split_ifs
  · trivial
  · intro h
    cases h
  · exact lends_fetchFilters raw _ _ _

/-! ### Arithmetic -/

/-- A parse that also stops, without an error of the source, where the exact
result of an operation that the source does not check is not a `usize`. -/
abbrev CheckedM (α : Type) := ExceptT (Option SysError) Native α

namespace Checked

def inRange (value : Int) : CheckedM Nat :=
  if 0 ≤ value ∧ value ≤ usizeMax then return value.toNat else throw none

def malformed {α : Type} (detail : String) : CheckedM α := throw (some (.malformedOutput detail))

def readBufferString (buffer : AlignedBuffer) (pointer base stop : Nat) : CheckedM OsString :=
  let start := pointer
  if pointer = 0 ∨ start < base ∨ start ≥ stop then
    malformed "filter string pointer lies outside its buffer"
  else if start % 2 ≠ 0 then malformed "filter string pointer is not UTF-16 aligned"
  else do
    let length ← inRange (stop - start)
    match ← sysCall (.tryReserveExact (length / 2) 2) with
    | none => throw (some .allocationFailure)
    | some _ =>
        let units ← (readUnits buffer stop start []).adapt some
        return OsString.fromWide units

def readTarget (buffer : AlignedBuffer) (record : RmFilterInfo) (base stop : Nat) :
    CheckedM RawFilterTarget :=
  if record.filterTrigger = RM_FILTER_TRIGGER_FILE then do
    return .executable (← readBufferString buffer record.anonymous.strFilename base stop)
  else if record.filterTrigger = RM_FILTER_TRIGGER_PROCESS then
    return .process (rawUniqueProcess record.anonymous.process)
  else if record.filterTrigger = RM_FILTER_TRIGGER_SERVICE then do
    return .service (← readBufferString buffer record.anonymous.strServiceShortName base stop)
  else malformed "filter buffer contains an unknown trigger"

def parseRecords (buffer : AlignedBuffer) (byteLen base stop offset : Nat)
    (filters : List RawFilter) : CheckedM (List RawFilter) :=
  if offset + recordSize > usizeMax then malformed "filter record offset overflowed"
  else if _hEnd : offset + recordSize > byteLen then
    malformed "filter record lies outside its buffer"
  else do
    let address ← inRange (buffer.base + offset)
    sysCall (.readUnaligned address recordSize)
    let record := buffer.recordAt offset
    let target ← readTarget buffer record base stop
    let filters := filters ++ [{ target, action := record.filterAction }]
    if record.cbNextOffset = 0 then return filters
    else
      let next ← inRange record.cbNextOffset.toNat
      if _hNext : next < recordSize then
        malformed "filter next offset does not advance past the current record"
      else if offset + next > usizeMax then malformed "filter next offset overflowed"
      else parseRecords buffer byteLen base stop (offset + next) filters
termination_by byteLen - offset
decreasing_by
  have := recordSize_pos
  omega

/-- The capacity is the product that the source computes from its words. -/
def parseFilterBuffer (buffer : AlignedBuffer) (byteLen : Nat) : CheckedM (List RawFilter) :=
  if byteLen = 0 then return []
  else do
    let words := buffer.bytes.length / pointerWidth.bytes
    let capacity ← inRange (words * pointerWidth.bytes)
    if byteLen > capacity then malformed "filter buffer length exceeds its allocation"
    else if byteLen < recordSize then malformed "filter buffer is shorter than RM_FILTER_INFO"
    else
      let base := buffer.base
      match checkedAdd base byteLen with
      | none => malformed "filter buffer range overflowed"
      | some stop => parseRecords buffer byteLen base stop 0 []

/-- A value that fits is not changed by the check. -/
theorem inRange_eq {value : Int} {n : Nat} (hValue : value = n) (hMax : n ≤ usizeMax) :
    inRange value = pure n := by
  subst hValue
  unfold inRange
  rw [if_pos (by omega), Int.toNat_natCast]

/-- Checked arithmetic goes through a sequence. -/
theorem adapt_bind {α β : Type} (method : SysM α) (next : α → SysM β) :
    (method >>= next).adapt some = (method.adapt some >>= fun value => (next value).adapt some :
      CheckedM β) := by
  apply ExceptT.ext
  change Except.mapError some <$> (method >>= next).run =
    (method.adapt some >>= fun value => (next value).adapt some : CheckedM β).run
  rw [ExceptT.run_bind, ExceptT.run_bind, map_bind]
  change _ = (Except.mapError some <$> method.run) >>= _
  rw [bind_map_left]
  apply bind_congr
  intro result
  cases result <;> rfl

variable {buffer : AlignedBuffer} {byteLen stop : Nat}

/-- With checks the string is read as without: nothing overflows. -/
theorem readBufferString_eq (hMax : stop ≤ usizeMax) (pointer base : Nat) :
    readBufferString buffer pointer base stop =
      (RestartManager.readBufferString buffer pointer base stop).adapt some := by
  unfold readBufferString RestartManager.readBufferString
  dsimp only
  split_ifs with hRange hAligned
  · rfl
  · rfl
  · have hSub : wrappingSub stop pointer = stop - pointer := wrappingSub_eq (by omega) hMax
    have hExact : (stop : Int) - pointer = (wrappingSub stop pointer : Nat) := by omega
    rw [inRange_eq hExact (by omega), pure_bind, adapt_bind]
    apply bind_congr
    intro response
    cases response with
    | none => rfl
    | some allocation =>
        dsimp only
        rw [adapt_bind]
        rfl

/-- With checks the target is read as without. -/
theorem readTarget_eq (hMax : stop ≤ usizeMax) (record : RmFilterInfo) (base : Nat) :
    readTarget buffer record base stop =
      (RestartManager.readTarget buffer record base stop).adapt some := by
  unfold readTarget RestartManager.readTarget
  split_ifs
  · rw [readBufferString_eq hMax, adapt_bind]
    rfl
  · rfl
  · rw [readBufferString_eq hMax, adapt_bind]
    rfl
  · rfl

/-- And the records, by the recursion on what is left of the buffer. -/
theorem parseRecords_eq (hStop : stop = buffer.base + byteLen) (hMax : stop ≤ usizeMax)
    (offset : Nat) (filters : List RawFilter) :
    parseRecords buffer byteLen buffer.base stop offset filters =
      (RestartManager.parseRecords buffer byteLen buffer.base stop offset filters).adapt some := by
  induction offset, filters using RestartManager.parseRecords.induct buffer byteLen with
  | case1 offset filters hAdd =>
      have hOver : offset + recordSize > usizeMax := by simpa [checkedAdd] using hAdd
      rw [parseRecords_overflow hAdd, parseRecords, if_pos hOver]
      rfl
  | case2 offset filters recordEnd hAdd hEnd =>
      rw [parseRecords_outside hAdd hEnd]
      obtain ⟨hFits, rfl⟩ := checkedAdd_eq_some.mp hAdd
      rw [parseRecords, if_neg (Nat.not_lt.mpr hFits), dif_pos hEnd]
      rfl
  | case3 offset filters recordEnd hAdd hEnd ih =>
      rw [parseRecords_inside hAdd hEnd]
      obtain ⟨hFits, rfl⟩ := checkedAdd_eq_some.mp hAdd
      have hAddress : (buffer.base : Int) + offset = (buffer.base + offset : Nat) := by omega
      rw [parseRecords, if_neg (Nat.not_lt.mpr hFits), dif_neg hEnd,
        inRange_eq hAddress (by omega), pure_bind, adapt_bind]
      apply bind_congr
      intro _
      dsimp only
      rw [readTarget_eq hMax, adapt_bind]
      apply bind_congr
      intro target
      by_cases hLast : (buffer.recordAt offset).cbNextOffset = 0
      · rw [if_pos hLast, if_pos hLast]
        rfl
      rw [if_neg hLast, if_neg hLast, usizeTryFrom_eq, pure_bind,
        inRange_eq rfl (Platform.pointerWidth.lt_usizeMax _), pure_bind]
      by_cases hNext : (buffer.recordAt offset).cbNextOffset.toNat < recordSize
      · rw [dif_pos hNext, dif_pos hNext]
        rfl
      rw [dif_neg hNext, dif_neg hNext]
      by_cases hOver : offset + (buffer.recordAt offset).cbNextOffset.toNat > usizeMax
      · rw [if_pos hOver]
        split
        · rfl
        · rename_i next hOffset
          exact absurd (checkedAdd_eq_some.mp hOffset).1 (Nat.not_le.mpr hOver)
      · rw [if_neg hOver]
        split
        · rename_i hOffset
          exact absurd (by simpa [checkedAdd] using hOffset) hOver
        · rename_i next hOffset
          obtain ⟨-, rfl⟩ := checkedAdd_eq_some.mp hOffset
          exact ih target _ hNext _ hOffset

/-- With every operation checked, the parser is the same program: no operation
that the source leaves unchecked overflows or underflows. -/
theorem parseFilterBuffer_eq (hWords : pointerWidth.bytes ∣ buffer.bytes.length) (byteLen : Nat) :
    parseFilterBuffer buffer byteLen =
      (RestartManager.parseFilterBuffer buffer byteLen).adapt some := by
  have hBound := buffer.base_add_le
  have hCapacity : ((buffer.bytes.length / pointerWidth.bytes : Nat) * pointerWidth.bytes : Int) =
      (buffer.byteCapacity : Nat) := by
    have hProduct := Nat.div_mul_cancel hWords
    rw [AlignedBuffer.byteCapacity]
    exact_mod_cast hProduct
  unfold parseFilterBuffer RestartManager.parseFilterBuffer
  have hFits : buffer.byteCapacity ≤ usizeMax := by
    unfold AlignedBuffer.byteCapacity
    omega
  dsimp only
  rw [inRange_eq hCapacity hFits, pure_bind]
  split
  · rfl
  split
  · rfl
  split
  · rfl
  cases hStop : checkedAdd buffer.base byteLen with
  | none => rfl
  | some stop =>
      obtain ⟨hMax, rfl⟩ := checkedAdd_eq_some.mp hStop
      exact parseRecords_eq rfl hMax 0 []

end Checked

/-! ### Every input -/

def Call.isRecordRead : Call → Bool
  | .readUnaligned _ length => length = recordSize
  | _ => false

/-- The number of records that a run has read. -/
def recordReads (trace : Trace) : Nat := trace.countP fun event => event.1.isRecordRead

section Runs

variable {buffer : AlignedBuffer} {byteLen : Nat} {trace : Trace}

/-- The contract counts the records that were read. -/
theorem after_readContract (n : Nat) :
    (readContract buffer byteLen).after n trace = n + recordReads trace := by
  have hNext (n : Nat) (c : Call) (response : c.Response) :
      (readContract buffer byteLen).next n c response = n + c.isRecordRead.toNat := by
    cases c with
    | readUnaligned address length =>
        by_cases h : length = recordSize <;> simp [readContract, Call.isRecordRead, h]
    | _ => rfl
  exact Contract.after_count hNext n trace

/-- Each record read leaves room for the ones before it. -/
theorem recordReads_le {n : Nat} (h : (readContract buffer byteLen).Respects n trace)
    (hn : n ≤ byteLen / recordSize) : n + recordReads trace ≤ byteLen / recordSize := by
  rw [← @after_readContract _ buffer byteLen]
  induction trace generalizing n with
  | nil => exact hn
  | cons event trace ih =>
      obtain ⟨hGuarantee, hRest⟩ := h
      apply ih hRest
      obtain ⟨c, response⟩ := event
      cases c with
      | readUnaligned address length =>
          change (if length = recordSize then n + 1 else n) ≤ _
          split
          · rename_i hLength
            obtain ⟨-, hTwo | ⟨-, hRoom⟩⟩ := hGuarantee
            · exact absurd (hLength.symm.trans hTwo) recordSize_ne_two
            · exact hRoom
          · exact hn
      | _ => exact hn

/-- A length beyond the allocation is refused before anything is read. -/
theorem parseFilterBuffer_exceeds (h : ¬byteLen ≤ buffer.byteCapacity) :
    parseFilterBuffer buffer byteLen = throw exceedsAllocation := by
  unfold parseFilterBuffer
  rw [if_neg (by omega), if_pos (by omega)]
  rfl

/-- Every run of the parser, finished or not, keeps to the bounds. -/
theorem parse_respects {p : Native (SysResult (List RawFilter))}
    (run : (parseFilterBuffer buffer byteLen).run.Steps trace p) :
    (readContract buffer byteLen).Respects 0 trace ∧ (trace ≠ [] → byteLen ≤ buffer.byteCapacity) := by
  by_cases hLen : byteLen ≤ buffer.byteCapacity
  · have hConforms := (readContract buffer byteLen).conforms_of_rely (fun _ _ _ => trivial) 0 trace
    exact ⟨(Contract.wp_steps _ run (reads_parseFilterBuffer hLen) hConforms).1, fun _ => hLen⟩
  · rw [parseFilterBuffer_exceeds hLen] at run
    obtain ⟨rfl, -⟩ := Program.steps_done_iff.mp run
    exact ⟨trivial, fun h => absurd rfl h⟩

/-- Each read of a run, finished or not, is inside the buffer. -/
theorem parse_reads {p : Native (SysResult (List RawFilter))} {address length : Nat}
    (run : (parseFilterBuffer buffer byteLen).run.Steps trace p)
    (hMem : ⟨.readUnaligned address length, ()⟩ ∈ trace) :
    byteLen ≤ buffer.byteCapacity ∧ buffer.base ≤ address ∧
      address + length ≤ buffer.base + byteLen ∧ (length = recordSize ∨ length = 2) := by
  obtain ⟨hRespects, hLen⟩ := parse_respects run
  obtain ⟨first, second, rfl⟩ := List.append_of_mem hMem
  obtain ⟨-, ⟨hBase, hEnd⟩, hKind⟩ := ((readContract buffer byteLen).respects_append 0 _ _).mp hRespects
    |>.imp_right And.left
  refine ⟨hLen (by simp), hBase, hEnd, ?_⟩
  rcases hKind with hTwo | ⟨hRecord, -⟩
  · exact .inr hTwo
  · exact .inl hRecord

/-- No answer is relied on, so every run of a listing keeps its contract. -/
theorem getFilters_respects {raw : UInt32} {p : Native (SysResult (List RawFilter))}
    (run : (getFilters raw).run.Steps trace p) : lendContract.Respects none trace ∧
      lendContract.wp p (fun result _ => Fitting result) (lentBlock trace) :=
  lendContract.wp_steps run (lends_getFilters raw)
    (lendContract.conforms_of_rely (fun _ _ _ => trivial) none trace)

/-- A new buffer is made of whole words. -/
theorem dvd_new {needed : UInt32} (run : (AlignedBuffer.new needed).run.Exec trace (.ok buffer)) :
    pointerWidth.bytes ∣ buffer.bytes.length := by
  unfold AlignedBuffer.new at run
  rw [usizeTryFrom_eq, pure_bind] at run
  dsimp only at run
  split at run
  · obtain ⟨-, h⟩ := Program.exec_done_iff.mp run
    cases h
  · obtain ⟨response, rest, rfl, last⟩ := exec_sysCall_bind_iff.mp run
    cases response with
    | none =>
        obtain ⟨-, h⟩ := Program.exec_done_iff.mp last
        cases h
    | some allocation =>
        obtain ⟨-, h⟩ := Program.exec_done_iff.mp last
        obtain rfl := Except.ok.inj h
        rw [List.length_replicate]
        exact Dvd.intro_left _ rfl

end Runs

/-- What the parser of the filter buffer does on every input. -/
structure FilterSafety : Prop where
  /-- It comes to an end, whatever is answered. -/
  terminates (buffer : AlignedBuffer) (byteLen : Nat) (answer : (c : Call) → c.Response) :
      ∃ trace result, (parseFilterBuffer buffer byteLen).run.Exec trace result ∧
        ∀ event ∈ trace, event.2 = answer event.1
  /-- It never reads more records than fit the length. -/
  records {buffer : AlignedBuffer} {byteLen : Nat} {trace : Trace}
      {p : Native (SysResult (List RawFilter))}
      (run : (parseFilterBuffer buffer byteLen).run.Steps trace p) :
      recordReads trace ≤ byteLen / recordSize
  /-- Every record and every unit is read inside the length, and the length is
  inside the allocation. -/
  reads {buffer : AlignedBuffer} {byteLen : Nat} {trace : Trace}
      {p : Native (SysResult (List RawFilter))} {address length : Nat}
      (run : (parseFilterBuffer buffer byteLen).run.Steps trace p)
      (read : ⟨.readUnaligned address length, ()⟩ ∈ trace) :
      byteLen ≤ buffer.byteCapacity ∧ buffer.base ≤ address ∧
        address + length ≤ buffer.base + byteLen ∧ (length = recordSize ∨ length = 2)
  /-- With every operation checked it is the same program. -/
  arithmetic (buffer : AlignedBuffer) (words : pointerWidth.bytes ∣ buffer.bytes.length)
      (byteLen : Nat) :
      Checked.parseFilterBuffer buffer byteLen = (parseFilterBuffer buffer byteLen).adapt some
  /-- A buffer is made of whole words. -/
  words {needed : UInt32} {trace : Trace} {buffer : AlignedBuffer}
      (run : (AlignedBuffer.new needed).run.Exec trace (.ok buffer)) :
      pointerWidth.bytes ∣ buffer.bytes.length
  /-- The byte count given to Windows is inside the block that was allocated. -/
  lent {raw raw' supplied : UInt32} {base : Nat} {reply : GetFilterListReply} {first second : Trace}
      {p : Native (SysResult (List RawFilter))}
      (run : (getFilters raw).run.Steps
        (first ++ ⟨.rmGetFilterList raw' (some base) supplied, reply⟩ :: second) p) :
      ∃ capacity, lentBlock first = some (base, capacity) ∧ supplied.toNat ≤ capacity
  /-- A listing reads inside that block. -/
  listed {raw : UInt32} {address length : Nat} {first second : Trace}
      {p : Native (SysResult (List RawFilter))}
      (run : (getFilters raw).run.Steps (first ++ ⟨.readUnaligned address length, ()⟩ :: second) p) :
      ∃ base capacity, lentBlock first = some (base, capacity) ∧ base ≤ address ∧
        address + length ≤ base + capacity
  /-- So no listing fails for a length that exceeds the allocation. -/
  unreachable {raw : UInt32} {trace : Trace} {result : SysResult (List RawFilter)}
      (run : (getFilters raw).run.Exec trace result) : result ≠ .error exceedsAllocation

end

/-- The reads come from the contract of the buffer, the arithmetic from the checked
parser, and the last clause from the lengths that a listing lends. -/
theorem filter_safety [Platform] : FilterSafety where
  terminates buffer byteLen answer := Program.exists_exec_answered answer _
  records run := by
    have hReads := recordReads_le (parse_respects run).1 (Nat.zero_le _)
    rwa [Nat.zero_add] at hReads
  reads run read := parse_reads run read
  arithmetic _ hWords byteLen := Checked.parseFilterBuffer_eq hWords byteLen
  words run := dvd_new run
  lent run := ((lendContract.respects_append none _ _).mp (getFilters_respects run).1).2.1
  listed run := ((lendContract.respects_append none _ _).mp (getFilters_respects run).1).2.1
  unreachable run := by
    have hFitting := (getFilters_respects run).2
    rintro rfl
    exact hFitting rfl

end RestartManager
