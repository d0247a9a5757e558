import RestartManager.Memory.LittleEndian
import RestartManager.Sys.Convert

/-! The parser of the buffer that `RmGetFilterList` fills: a chain of records
linked by relative offsets, with absolute pointers to strings that lie in the
same buffer. Nothing in the buffer is trusted. -/
namespace RestartManager

open Platform

variable [Platform]

/-! ### Layout of `RM_FILTER_INFO` -/

abbrev RM_FILTER_TRIGGER_FILE : Int32 := 1
abbrev RM_FILTER_TRIGGER_PROCESS : Int32 := 2
abbrev RM_FILTER_TRIGGER_SERVICE : Int32 := 3

/-- Where the union starts: after three four-byte fields, padded to the
alignment of a pointer. -/
def unionOffset : Nat :=
  match pointerWidth with
  | .bits32 => 12
  | .bits64 => 16

/-- The union holds a process identity of twelve bytes, padded likewise. -/
def recordSize : Nat :=
  match pointerWidth with
  | .bits32 => 24
  | .bits64 => 32

/-- The bytes of the union, of which the trigger selects the active member. -/
structure RmFilterInfoUnion where
  bytes : List UInt8

namespace RmFilterInfoUnion

def pointer (value : RmFilterInfoUnion) : Nat :=
  LittleEndian.value (value.bytes.take pointerWidth.bytes)

def strFilename (value : RmFilterInfoUnion) : Nat := value.pointer

def strServiceShortName (value : RmFilterInfoUnion) : Nat := value.pointer

def process (value : RmFilterInfoUnion) : RmUniqueProcess :=
  { dwProcessId := .ofNat (LittleEndian.value (value.bytes.take 4))
    processStartTime :=
      { dwLowDateTime := .ofNat (LittleEndian.value ((value.bytes.drop 4).take 4))
        dwHighDateTime := .ofNat (LittleEndian.value ((value.bytes.drop 8).take 4)) } }

end RmFilterInfoUnion

structure RmFilterInfo where
  filterAction : Int32
  filterTrigger : Int32
  cbNextOffset : UInt32
  anonymous : RmFilterInfoUnion

def RmFilterInfo.ofBytes (bytes : List UInt8) : RmFilterInfo :=
  { filterAction := (UInt32.ofNat (LittleEndian.value (bytes.take 4))).toInt32
    filterTrigger := (UInt32.ofNat (LittleEndian.value ((bytes.drop 4).take 4))).toInt32
    cbNextOffset := .ofNat (LittleEndian.value ((bytes.drop 8).take 4))
    anonymous := ⟨bytes.drop unionOffset⟩ }

/-! ### The buffer -/

/-- An allocation and its present contents. -/
structure AlignedBuffer where
  base : Nat
  bytes : List UInt8
  base_ne_zero : base ≠ 0
  base_add_le : base + bytes.length ≤ usizeMax

namespace AlignedBuffer

/-- Whole words that cover `byteLen` bytes, all zero. -/
def new (byteLen : UInt32) : SysM AlignedBuffer := do
  let byteLen ← usizeTryFrom byteLen
  let word := pointerWidth.bytes
  match checkedAdd byteLen (word - 1) with
  | none => throw .countOverflow
  | some padded =>
      let words := padded / word
      match ← sysCall (.tryReserveExact words word) with
      | none => throw .allocationFailure
      | some allocation => return {
          base := allocation.base
          bytes := List.replicate (words * word) 0
          base_ne_zero := allocation.base_ne_zero
          base_add_le := by simpa using allocation.base_add_le }

def byteCapacity (buffer : AlignedBuffer) : Nat := buffer.bytes.length

def recordAt (buffer : AlignedBuffer) (offset : Nat) : RmFilterInfo :=
  .ofBytes ((buffer.bytes.drop offset).take recordSize)

/-- The sixteen-bit unit stored at an address. -/
def unitAt (buffer : AlignedBuffer) (address : Nat) : UInt16 :=
  .ofNat (LittleEndian.value ((buffer.bytes.drop (address - buffer.base)).take 2))

end AlignedBuffer

/-! ### The parser -/

/-- The loop of `read_buffer_string`: collect units up to the first NUL. -/
def readUnits (buffer : AlignedBuffer) (stop cursor : Nat) (units : List UInt16) :
    SysM (List UInt16) :=
  match _h : checkedAdd cursor 2 with
  | none => throw (.malformedOutput "filter string pointer overflowed")
  | some unitEnd =>
      if _hEnd : unitEnd > stop then
        throw (.malformedOutput "filter string was not NUL-terminated inside its buffer")
      else do
        sysCall (.readUnaligned cursor 2)
        let unit := buffer.unitAt cursor
        if unit = 0 then return units
        else readUnits buffer stop unitEnd (units ++ [unit])
termination_by stop - cursor
decreasing_by
  have := checkedAdd_eq_some.mp _h
  omega

def readBufferString (buffer : AlignedBuffer) (pointer base stop : Nat) : SysM OsString :=
  let start := pointer
  if pointer = 0 ∨ start < base ∨ start ≥ stop then
    throw (.malformedOutput "filter string pointer lies outside its buffer")
  else if start % 2 ≠ 0 then
    throw (.malformedOutput "filter string pointer is not UTF-16 aligned")
  else do
    match ← sysCall (.tryReserveExact (wrappingSub stop start / 2) 2) with
    | none => throw .allocationFailure
    | some _ =>
        let units ← readUnits buffer stop start []
        return OsString.fromWide units

/-- The `match` on the trigger of one record. -/
def readTarget (buffer : AlignedBuffer) (record : RmFilterInfo) (base stop : Nat) :
    SysM RawFilterTarget :=
  if record.filterTrigger = RM_FILTER_TRIGGER_FILE then do
    return .executable (← readBufferString buffer record.anonymous.strFilename base stop)
  else if record.filterTrigger = RM_FILTER_TRIGGER_PROCESS then
    return .process (rawUniqueProcess record.anonymous.process)
  else if record.filterTrigger = RM_FILTER_TRIGGER_SERVICE then do
    return .service (← readBufferString buffer record.anonymous.strServiceShortName base stop)
  else throw (.malformedOutput "filter buffer contains an unknown trigger")

/-- The outer loop of `parse_filter_buffer`, from the record at `offset`. -/
def parseRecords (buffer : AlignedBuffer) (byteLen base stop offset : Nat)
    (filters : List RawFilter) : SysM (List RawFilter) :=
  match _h : checkedAdd offset recordSize with
  | none => throw (.malformedOutput "filter record offset overflowed")
  | some recordEnd =>
      if _hEnd : recordEnd > byteLen then
        throw (.malformedOutput "filter record lies outside its buffer")
      else do
        sysCall (.readUnaligned (buffer.base + offset) recordSize)
        let record := buffer.recordAt offset
        let target ← readTarget buffer record base stop
        let filters := filters ++ [{ target, action := record.filterAction }]
        if record.cbNextOffset = 0 then return filters
        else
          let next ← usizeTryFrom record.cbNextOffset
          if _hNext : next < recordSize then
            throw (.malformedOutput "filter next offset does not advance past the current record")
          else
            match _hAdd : checkedAdd offset next with
            | none => throw (.malformedOutput "filter next offset overflowed")
            | some offset' => parseRecords buffer byteLen base stop offset' filters
termination_by byteLen - offset
decreasing_by
  have := checkedAdd_eq_some.mp _h
  have := checkedAdd_eq_some.mp _hAdd
  have : 0 < recordSize := by unfold recordSize; split <;> decide
  omega

def parseFilterBuffer (buffer : AlignedBuffer) (byteLen : Nat) : SysM (List RawFilter) :=
  if byteLen = 0 then return []
  else if byteLen > buffer.byteCapacity then
    throw (.malformedOutput "filter buffer length exceeds its allocation")
  else if byteLen < recordSize then
    throw (.malformedOutput "filter buffer is shorter than RM_FILTER_INFO")
  else
    let base := buffer.base
    match checkedAdd base byteLen with
    | none => throw (.malformedOutput "filter buffer range overflowed")
    | some stop => parseRecords buffer byteLen base stop 0 []

/-! ### One turn of each loop -/

section

variable {buffer : AlignedBuffer} {byteLen base stop cursor unitEnd offset recordEnd : Nat}
  {units : List UInt16} {filters : List RawFilter}

theorem readUnits_overflow (hAdd : checkedAdd cursor 2 = none) :
    readUnits buffer stop cursor units =
      throw (.malformedOutput "filter string pointer overflowed") := by
  rw [readUnits]
  split
  · rfl
  · rename_i found hFound
    cases hAdd.symm.trans hFound

theorem readUnits_outside (hAdd : checkedAdd cursor 2 = some unitEnd) (hEnd : unitEnd > stop) :
    readUnits buffer stop cursor units =
      throw (.malformedOutput "filter string was not NUL-terminated inside its buffer") := by
  rw [readUnits]
  split
  · rename_i hNone
    cases hAdd.symm.trans hNone
  · rename_i found hFound
    obtain rfl := Option.some.inj (hFound.symm.trans hAdd)
    exact dif_pos hEnd

theorem readUnits_inside (hAdd : checkedAdd cursor 2 = some unitEnd) (hEnd : ¬unitEnd > stop) :
    readUnits buffer stop cursor units = (do
      sysCall (.readUnaligned cursor 2)
      let unit := buffer.unitAt cursor
      if unit = 0 then return units else readUnits buffer stop unitEnd (units ++ [unit])) := by
  rw [readUnits]
  split
  · rename_i hNone
    cases hAdd.symm.trans hNone
  · rename_i found hFound
    obtain rfl := Option.some.inj (hFound.symm.trans hAdd)
    exact dif_neg hEnd

theorem parseRecords_overflow (hAdd : checkedAdd offset recordSize = none) :
    parseRecords buffer byteLen base stop offset filters =
      throw (.malformedOutput "filter record offset overflowed") := by
  rw [parseRecords]
  split
  · rfl
  · rename_i found hFound
    cases hAdd.symm.trans hFound

theorem parseRecords_outside (hAdd : checkedAdd offset recordSize = some recordEnd)
    (hEnd : recordEnd > byteLen) : parseRecords buffer byteLen base stop offset filters =
      throw (.malformedOutput "filter record lies outside its buffer") := by
  rw [parseRecords]
  split
  · rename_i hNone
    cases hAdd.symm.trans hNone
  · rename_i found hFound
    obtain rfl := Option.some.inj (hFound.symm.trans hAdd)
    exact dif_pos hEnd

theorem parseRecords_inside (hAdd : checkedAdd offset recordSize = some recordEnd)
    (hEnd : ¬recordEnd > byteLen) : parseRecords buffer byteLen base stop offset filters = (do
      sysCall (.readUnaligned (buffer.base + offset) recordSize)
      let record := buffer.recordAt offset
      let target ← readTarget buffer record base stop
      let filters := filters ++ [{ target, action := record.filterAction }]
      if record.cbNextOffset = 0 then return filters
      else
        let next ← usizeTryFrom record.cbNextOffset
        if _hNext : next < recordSize then
          throw (.malformedOutput "filter next offset does not advance past the current record")
        else
          match _hAdd : checkedAdd offset next with
          | none => throw (.malformedOutput "filter next offset overflowed")
          | some offset' => parseRecords buffer byteLen base stop offset' filters) := by
  rw [parseRecords]
  split
  · rename_i hNone
    cases hAdd.symm.trans hNone
  · rename_i found hFound
    obtain rfl := Option.some.inj (hFound.symm.trans hAdd)
    exact dif_neg hEnd

end

end RestartManager
