import RestartManager.Sys.FilterChain

/-! The representation of filters in memory, byte by byte, and that it is a
well-formed chain. Windows chooses where records and strings are placed; only
the linking of the records and the bounds are fixed here. -/
namespace RestartManager

open Platform

section

/-! ### Stored numbers -/

/-- A word survives its four bytes. -/
theorem UInt32.ofNat_value_bytes (value : UInt32) :
    UInt32.ofNat (LittleEndian.value (LittleEndian.bytes 4 value.toNat)) = value := by
  rw [LittleEndian.value_bytes (by simpa using value.toNat_lt), UInt32.ofNat_toNat]

theorem UInt16.ofNat_value_bytes (value : UInt16) :
    UInt16.ofNat (LittleEndian.value (LittleEndian.bytes 2 value.toNat)) = value := by
  rw [LittleEndian.value_bytes (by simpa using value.toNat_lt), UInt16.ofNat_toNat]

/-- The bytes of a native process identity. -/
def RmUniqueProcess.toBytes (value : RmUniqueProcess) : List UInt8 :=
  LittleEndian.bytes 4 value.dwProcessId.toNat ++
    LittleEndian.bytes 4 value.processStartTime.dwLowDateTime.toNat ++
    LittleEndian.bytes 4 value.processStartTime.dwHighDateTime.toNat

/-- A process that was stored at the start of the union is read back. -/
theorem RmFilterInfoUnion.process_toBytes (value : RmUniqueProcess) (rest : List UInt8) :
    (RmFilterInfoUnion.mk (value.toBytes ++ rest)).process = value := by
  simp [RmFilterInfoUnion.process, RmUniqueProcess.toBytes, List.drop_append,
    UInt32.ofNat_value_bytes]

variable [Platform]

/-- The bytes of a record with these fields. The padding before the union is
whatever it was. -/
def recordBytes (action trigger : Int32) (next : UInt32) (padding union : List UInt8) :
    List UInt8 :=
  LittleEndian.bytes 4 action.toUInt32.toNat ++ LittleEndian.bytes 4 trigger.toUInt32.toNat ++
    LittleEndian.bytes 4 next.toNat ++ padding ++ union

/-- The fields of a record are where the C layout has them. -/
theorem RmFilterInfo.ofBytes_recordBytes (action trigger : Int32) (next : UInt32)
    {padding union : List UInt8} (hPadding : padding.length = unionOffset - 12) :
    RmFilterInfo.ofBytes (recordBytes action trigger next padding union) =
      { filterAction := action
        filterTrigger := trigger
        cbNextOffset := next
        anonymous := ⟨union⟩ } := by
  have hUnion : 12 ≤ unionOffset := by unfold unionOffset; split <;> decide
  have hDrop : (recordBytes action trigger next padding union).drop unionOffset = union := by
    rw [recordBytes, List.drop_left' (by simp [hPadding]; omega)]
  rw [RmFilterInfo.ofBytes, hDrop]
  simp [recordBytes, List.drop_append, UInt32.ofNat_value_bytes]

/-- A pointer survives its bytes on either width. -/
theorem RmFilterInfoUnion.pointer_bytes {pointer : Nat} (h : pointer ≤ usizeMax)
    (rest : List UInt8) :
    (RmFilterInfoUnion.mk (LittleEndian.bytes pointerWidth.bytes pointer ++ rest)).pointer =
      pointer := by
  rw [RmFilterInfoUnion.pointer, List.take_left' (by simp), LittleEndian.value_bytes]
  unfold usizeMax PointerWidth.usizeMax at h
  unfold PointerWidth.bytes
  split at h <;> simp_all <;> omega

/-! ### Stored strings -/

/-- A wide string stored at an aligned address inside the first `byteLen`
bytes. -/
structure StoresString (buffer : AlignedBuffer) (byteLen pointer : Nat) (value : WideString) :
    Prop where
  aligned : pointer % 2 = 0
  base_le : buffer.base ≤ pointer
  le_end : pointer + 2 * value.buffer.length ≤ buffer.base + byteLen
  stored : (buffer.bytes.drop (pointer - buffer.base)).take (2 * value.buffer.length) =
    value.buffer.flatMap fun unit => LittleEndian.bytes 2 unit.toNat

/-- The first unit of what is stored at a cursor. -/
theorem unitAt_of_stored {buffer : AlignedBuffer} {cursor n : Nat} {unit : UInt16}
    {rest : List UInt8}
    (h : (buffer.bytes.drop (cursor - buffer.base)).take (2 * (n + 1)) =
      LittleEndian.bytes 2 unit.toNat ++ rest) : buffer.unitAt cursor = unit := by
  have hTake := congrArg (List.take 2) h
  rw [List.take_take, List.take_left' (by simp), show min 2 (2 * (n + 1)) = 2 by omega] at hTake
  rw [AlignedBuffer.unitAt, hTake, UInt16.ofNat_value_bytes]

/-- Stored units without a NUL are found again by their terminator. -/
theorem holdsString_of_stored {buffer : AlignedBuffer} {stop cursor : Nat} {units : List UInt16}
    (hNul : 0 ∉ units) (hBase : buffer.base ≤ cursor) (hStop : cursor + 2 * (units.length + 1) ≤ stop)
    (hStored : (buffer.bytes.drop (cursor - buffer.base)).take (2 * (units.length + 1)) =
      (units ++ [0]).flatMap fun unit : UInt16 => LittleEndian.bytes 2 unit.toNat) :
    HoldsString buffer stop cursor units := by
  induction units generalizing cursor with
  | nil => exact ⟨by simpa using hStop, unitAt_of_stored hStored⟩
  | cons unit units ih =>
      rw [List.mem_cons, not_or] at hNul
      rw [List.length_cons] at hStop hStored
      refine ⟨by omega, unitAt_of_stored hStored, Ne.symm hNul.1, ?_⟩
      have hRest := congrArg (List.drop 2) hStored
      rw [List.drop_take, List.drop_drop, List.cons_append, List.flatMap_cons,
        List.drop_left' (by simp)] at hRest
      refine ih hNul.2 (by omega) (by omega) ?_
      rw [show cursor + 2 - buffer.base = cursor - buffer.base + 2 by omega]
      exact hRest

/-- A stored string is found with all its units, and terminated. -/
theorem StoresString.stringAt {buffer : AlignedBuffer} {byteLen pointer : Nat} {value : OsString}
    (h : StoresString buffer byteLen pointer (.new value)) (hNul : 0 ∉ value.units) :
    StringAt buffer byteLen pointer value.units := by
  have hLength : (WideString.new value).buffer.length = value.units.length + 1 := by
    simp [WideString.new, OsString.encodeWide]
  obtain ⟨hAligned, hBase, hEnd, hStored⟩ := h
  rw [hLength] at hEnd hStored
  exact ⟨hAligned, hBase, by omega, holdsString_of_stored hNul hBase hEnd hStored⟩

/-! ### Stored records -/

/-- The bytes at `offset` are a record with these fields. -/
def StoresFields (buffer : AlignedBuffer) (offset : Nat) (action trigger : Int32) (next : UInt32)
    (union : List UInt8) : Prop :=
  ∃ padding, padding.length = unionOffset - 12 ∧
    (buffer.bytes.drop offset).take recordSize = recordBytes action trigger next padding union

/-- The target is stored in the union: a process identity by value, and a
string by a pointer to where it is stored. -/
def StoresTarget (buffer : AlignedBuffer) (byteLen offset : Nat) (action : Int32) (next : UInt32) :
    RawFilterTarget → Prop
  | .executable path => ∃ pointer rest,
      StoresFields buffer offset action RM_FILTER_TRIGGER_FILE next
        (LittleEndian.bytes pointerWidth.bytes pointer ++ rest) ∧
      StoresString buffer byteLen pointer (.new path)
  | .process value => ∃ rest,
      StoresFields buffer offset action RM_FILTER_TRIGGER_PROCESS next
        ((nativeUniqueProcess value).toBytes ++ rest)
  | .service name => ∃ pointer rest,
      StoresFields buffer offset action RM_FILTER_TRIGGER_SERVICE next
        (LittleEndian.bytes pointerWidth.bytes pointer ++ rest) ∧
      StoresString buffer byteLen pointer (.new name)

/-- Filters stored from `offset` on, in order. Each next offset is at least
the record size, and otherwise free. -/
inductive StoresChain (buffer : AlignedBuffer) (byteLen : Nat) : Nat → List RawFilter → Prop
  | last {offset : Nat} {filter : RawFilter} (inside : offset + recordSize ≤ byteLen)
      (record : StoresTarget buffer byteLen offset filter.action 0 filter.target) :
      StoresChain buffer byteLen offset [filter]
  | link {offset : Nat} {filter : RawFilter} {rest : List RawFilter} {next : UInt32}
      (inside : offset + recordSize ≤ byteLen)
      (record : StoresTarget buffer byteLen offset filter.action next filter.target)
      (advances : recordSize ≤ next.toNat)
      (tail : StoresChain buffer byteLen (offset + next.toNat) rest) :
      StoresChain buffer byteLen offset (filter :: rest)

def RawFilterTarget.NulFree : RawFilterTarget → Prop
  | .executable path => 0 ∉ path.units
  | .process _ => True
  | .service name => 0 ∉ name.units

/-- A stored record is read with its own fields. -/
theorem StoresFields.recordAt {buffer : AlignedBuffer} {offset : Nat} {action trigger : Int32}
    {next : UInt32} {union : List UInt8} (h : StoresFields buffer offset action trigger next union) :
    buffer.recordAt offset = ⟨action, trigger, next, ⟨union⟩⟩ := by
  obtain ⟨padding, hPadding, hBytes⟩ := h
  rw [AlignedBuffer.recordAt, hBytes, RmFilterInfo.ofBytes_recordBytes _ _ _ hPadding]

theorem StoresString.pointer_le {buffer : AlignedBuffer} {byteLen pointer : Nat} {value : WideString}
    (h : StoresString buffer byteLen pointer value) (hLen : byteLen ≤ buffer.byteCapacity) :
    pointer ≤ usizeMax := by
  have := buffer.base_add_le
  have := h.le_end
  unfold AlignedBuffer.byteCapacity at hLen
  omega

/-- A stored target is the one that its record names. -/
theorem StoresTarget.recordAt {buffer : AlignedBuffer} {byteLen offset : Nat} {filter : RawFilter}
    {next : UInt32} (h : StoresTarget buffer byteLen offset filter.action next filter.target)
    (hInside : offset + recordSize ≤ byteLen) (hLen : byteLen ≤ buffer.byteCapacity)
    (hNul : filter.target.NulFree) :
    RecordAt buffer byteLen offset filter ∧ (buffer.recordAt offset).cbNextOffset = next := by
  obtain ⟨target, action⟩ := filter
  cases target with
  | executable path =>
      obtain ⟨pointer, rest, hFields, hString⟩ := h
      refine ⟨⟨hInside, ⟨?_, ?_⟩, ?_⟩, ?_⟩ <;> rw [hFields.recordAt]
      change StringAt buffer byteLen (RmFilterInfoUnion.pointer _) path.units
      rw [RmFilterInfoUnion.pointer_bytes (hString.pointer_le hLen)]
      exact hString.stringAt hNul
  | process value =>
      obtain ⟨rest, hFields⟩ := h
      refine ⟨⟨hInside, ⟨?_, ?_⟩, ?_⟩, ?_⟩ <;> rw [hFields.recordAt]
      rw [RmFilterInfoUnion.process_toBytes, rawUniqueProcess_nativeUniqueProcess]
  | service name =>
      obtain ⟨pointer, rest, hFields, hString⟩ := h
      refine ⟨⟨hInside, ⟨?_, ?_⟩, ?_⟩, ?_⟩ <;> rw [hFields.recordAt]
      change StringAt buffer byteLen (RmFilterInfoUnion.pointer _) name.units
      rw [RmFilterInfoUnion.pointer_bytes (hString.pointer_le hLen)]
      exact hString.stringAt hNul

/-- Stored filters form a well-formed chain. -/
theorem StoresChain.filterChain {buffer : AlignedBuffer} {byteLen offset : Nat}
    {filters : List RawFilter} (h : StoresChain buffer byteLen offset filters)
    (hLen : byteLen ≤ buffer.byteCapacity) (hNul : ∀ filter ∈ filters, filter.target.NulFree) :
    FilterChain buffer byteLen offset filters := by
  induction h with
  | last inside record =>
      obtain ⟨hRecord, hNext⟩ := record.recordAt inside hLen (hNul _ (by simp))
      exact .last hRecord hNext
  | @link offset filter rest next inside record advances _ ih =>
      obtain ⟨hRecord, hNext⟩ := record.recordAt inside hLen (hNul _ (by simp))
      have hSize : 0 < recordSize := by unfold recordSize; split <;> decide
      refine .link hRecord ?_ (by rwa [hNext]) ?_
      · rw [hNext]
        rintro rfl
        simp at advances
        omega
      · rw [hNext]
        exact ih fun f hf => hNul f (List.mem_cons_of_mem _ hf)

end

/-! ### Two linked records -/

section

attribute [local instance] driveLetters

/-- A single process record is a chain. -/
theorem storesChain_processRecord {buffer : AlignedBuffer}
    (h : buffer.bytes.take 32 = processRecord) : StoresChain buffer 32 0 [⟨.process ⟨7, 5⟩, 1⟩] :=
  .last (by decide) ⟨[0, 0, 0, 0], [0, 0, 0, 0], rfl, h⟩

theorem serviceBytes_length (rest : List UInt8) (base : Nat) :
    (serviceBytes rest base).length = 37 + rest.length := by
  have hBase := Nat.mod_lt base Nat.two_pos
  simp [serviceBytes]
  omega

/-- The part of a buffer that was written to. -/
theorem take_drop_of_take {buffer : AlignedBuffer} {bytes : List UInt8} {size : Nat}
    (h : buffer.bytes.take size = bytes) {i n : Nat} (hn : i + n ≤ size) :
    (buffer.bytes.drop i).take n = (bytes.drop i).take n := by
  rw [← h, List.drop_take, List.take_take, Nat.min_eq_left (by omega)]

/-- The record of the service is found at the start, and its name at the
address in the record. -/
theorem storesTarget_serviceBytes {buffer : AlignedBuffer} {rest : List UInt8}
    (hRest : rest = [] ∨ rest = processRecord)
    (h : buffer.bytes.take (37 + rest.length) = serviceBytes rest buffer.base) :
    StoresTarget buffer (37 + rest.length) 0 2 (.ofNat rest.length) (.service ⟨[0x73]⟩) := by
  have hBase := Nat.mod_lt buffer.base Nat.two_pos
  refine ⟨buffer.base + (32 + rest.length + buffer.base % 2), List.replicate 8 0,
    ⟨List.replicate 4 0, rfl, ?_⟩, ?_, by omega, ?_, ?_⟩
  · change (buffer.bytes.drop 0).take 32 = _
    rw [take_drop_of_take h (by omega)]
    rcases hRest with rfl | rfl <;> rfl
  · rcases hRest with rfl | rfl <;> simp [processRecord] <;> omega
  · change _ + 2 * 2 ≤ _
    omega
  · rw [Nat.add_sub_cancel_left]
    change (buffer.bytes.drop _).take 4 = [0x73, 0, 0, 0]
    rw [take_drop_of_take h (by omega)]
    rcases hRest with rfl | rfl <;> rcases Nat.mod_two_eq_zero_or_one buffer.base with hEven | hEven <;>
      rw [serviceBytes, hEven] <;> rfl

/-- A service record with its string inside the buffer is a chain. -/
theorem storesChain_serviceBytes {buffer : AlignedBuffer}
    (h : buffer.bytes.take 37 = serviceBytes [] buffer.base) :
    StoresChain buffer 37 0 [⟨.service ⟨[0x73]⟩, 2⟩] :=
  .last (by decide) (storesTarget_serviceBytes (.inl rfl) h)

/-- The bytes are the representation of both filters, wherever they are put. -/
theorem storesChain_linkedBytes {buffer : AlignedBuffer}
    (h : buffer.bytes.take 69 = linkedBytes buffer.base) : StoresChain buffer 69 0 linkedFilters := by
  have hProcess : (buffer.bytes.drop 32).take 32 = processRecord := by
    rw [take_drop_of_take h (by decide)]
    rfl
  exact .link (by decide) (storesTarget_serviceBytes (.inr rfl) h) (by decide)
    (.last (by decide) ⟨[0, 0, 0, 0], [0, 0, 0, 0], rfl, hProcess⟩)

end
end RestartManager
