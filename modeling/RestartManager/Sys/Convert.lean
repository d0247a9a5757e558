import RestartManager.Sys.Native

/-! Mechanical conversions between native values and the raw values that
leave the adapter. -/
namespace RestartManager

structure RawUniqueProcess where
  pid : UInt32
  startTime : UInt64
  deriving DecidableEq, Repr

structure RawApplication where
  displayName : OsString
  serviceName : OsString
  applicationType : Int32
  status : UInt32
  restartable : Bool
  process : RawUniqueProcess
  terminalSessionId : UInt32
  deriving DecidableEq, Repr

structure RawAffectedApplications where
  applications : List RawApplication
  rebootReasons : UInt32
  deriving DecidableEq, Repr

inductive RawFilterTarget
  | executable (path : PathBuf)
  | process (value : RawUniqueProcess)
  | service (name : OsString)
  deriving DecidableEq, Repr

structure RawFilter where
  target : RawFilterTarget
  action : Int32
  deriving DecidableEq, Repr

def filetimeToU64 (value : FileTime) : UInt64 :=
  (value.dwHighDateTime.toUInt64 <<< 32) ||| value.dwLowDateTime.toUInt64

def u64ToFiletime (value : UInt64) : FileTime :=
  { dwLowDateTime := value.toUInt32, dwHighDateTime := (value >>> 32).toUInt32 }

def rawUniqueProcess (value : RmUniqueProcess) : RawUniqueProcess :=
  { pid := value.dwProcessId, startTime := filetimeToU64 value.processStartTime }

def nativeUniqueProcess (value : RawUniqueProcess) : RmUniqueProcess :=
  { dwProcessId := value.pid, processStartTime := u64ToFiletime value.startTime }

theorem toNat_filetimeToU64 (value : FileTime) : (filetimeToU64 value).toNat =
    value.dwHighDateTime.toNat * 2 ^ 32 + value.dwLowDateTime.toNat := by
  have hHigh := value.dwHighDateTime.toNat_lt
  have hShift : (32 : UInt64).toNat % 64 = 32 := rfl
  rw [filetimeToU64, UInt64.toNat_or, UInt64.toNat_shiftLeft, hShift, UInt32.toNat_toUInt64,
    UInt32.toNat_toUInt64, Nat.mod_eq_of_lt (by rw [Nat.shiftLeft_eq]; omega),
    ← Nat.shiftLeft_add_eq_or_of_lt value.dwLowDateTime.toNat_lt, Nat.shiftLeft_eq]

theorem toNat_u64ToFiletime (value : UInt64) :
    (u64ToFiletime value).dwHighDateTime.toNat = value.toNat / 2 ^ 32 ∧
      (u64ToFiletime value).dwLowDateTime.toNat = value.toNat % 2 ^ 32 := by
  have hValue := value.toNat_lt
  have hShift : (32 : UInt64).toNat % 64 = 32 := rfl
  simp only [u64ToFiletime, UInt64.toNat_toUInt32, UInt64.toNat_shiftRight, hShift,
    Nat.shiftRight_eq_div_pow, and_true]
  omega

/-- The two halves of a time keep all of its bits. -/
theorem filetimeToU64_u64ToFiletime (value : UInt64) :
    filetimeToU64 (u64ToFiletime value) = value := by
  obtain ⟨hHigh, hLow⟩ := toNat_u64ToFiletime value
  apply UInt64.toNat_inj.mp
  rw [toNat_filetimeToU64, hHigh, hLow]
  omega

theorem u64ToFiletime_filetimeToU64 (value : FileTime) :
    u64ToFiletime (filetimeToU64 value) = value := by
  have hLowBound := value.dwLowDateTime.toNat_lt
  obtain ⟨hHigh, hLow⟩ := toNat_u64ToFiletime (filetimeToU64 value)
  rw [toNat_filetimeToU64] at hHigh hLow
  rcases hTime : u64ToFiletime (filetimeToU64 value) with ⟨low, high⟩
  rw [hTime] at hHigh hLow
  obtain ⟨low', high'⟩ := value
  simp only [FileTime.mk.injEq, ← UInt32.toNat_inj] at *
  omega

@[simp] theorem rawUniqueProcess_nativeUniqueProcess (value : RawUniqueProcess) :
    rawUniqueProcess (nativeUniqueProcess value) = value := by
  simp [rawUniqueProcess, nativeUniqueProcess, filetimeToU64_u64ToFiletime]

namespace WideString

def new (value : OsString) : WideString := ⟨value.encodeWide ++ [0]⟩

end WideString

/-- The units of a fixed-width field up to its first NUL. -/
def decodeFixed (value : List UInt16) : SysResult OsString :=
  match value.findIdx? (· = 0) with
  | some nul => .ok (OsString.fromWide (value.take nul))
  | none => .error (.malformedOutput "a fixed-width UTF-16 field was not NUL-terminated")

/-- `u32::try_from` of a length. -/
def count (length : Nat) : SysResult UInt32 :=
  if length < 2 ^ 32 then .ok (.ofNat length) else .error .countOverflow

def pointerOrNull {α : Type} (values : List α) : Option (List α) :=
  if values.isEmpty then none else some values

/-- A field with a terminator decodes to the units before the first one. -/
theorem decodeFixed_eq {value : List UInt16} (h : 0 ∈ value) :
    decodeFixed value = .ok ⟨value.takeWhile (· ≠ 0)⟩ := by
  have hSome : (value.findIdx? (· = 0)).isSome := by
    rw [List.findIdx?_isSome]
    exact List.any_eq_true.mpr ⟨0, h, by simp⟩
  obtain ⟨nul, hNul⟩ := Option.isSome_iff_exists.mp hSome
  have hTake : value.take nul = value.takeWhile (· ≠ 0) := by
    rw [List.takeWhile_eq_take_findIdx_not, ← (List.findIdx?_eq_some_iff_findIdx_eq.mp hNul).2]
    simp
  simp only [decodeFixed, hNul, hTake, OsString.fromWide]

namespace WideString

/-- Windows reads the string that was passed: the only NUL is the terminator. -/
structure Carries (wide : WideString) (value : OsString) : Prop where
  one_nul : wide.buffer.count 0 = 1
  terminated : wide.buffer.getLast? = some 0
  read_back : decodeFixed wide.buffer = .ok value

theorem decodeFixed_new {value : OsString} (h : 0 ∉ value.units) :
    decodeFixed (new value).buffer = .ok value := by
  have hTake : (value.units ++ [0]).takeWhile (· ≠ 0) = value.units := by
    rw [List.takeWhile_append_of_pos]
    · simp
    · intro unit hMem
      apply decide_eq_true
      intro hZero
      exact h (hZero ▸ hMem)
  rw [decodeFixed_eq (by simp [new]), new, OsString.encodeWide, hTake]

/-- A string with a NUL is truncated, and any other one is not. -/
theorem new_carries_iff {value : OsString} : (new value).Carries value ↔ 0 ∉ value.units := by
  constructor
  · intro h
    have hCount := h.one_nul
    simp only [new, OsString.encodeWide, List.count_append, List.count_singleton_self] at hCount
    exact List.count_eq_zero.mp (by omega)
  · intro h
    refine ⟨?_, by simp [new], decodeFixed_new h⟩
    simp [new, OsString.encodeWide, List.count_append, List.count_eq_zero.mpr h]

/-- The image of some string that it carries. -/
def Whole (wide : WideString) : Prop := ∃ value, wide = .new value ∧ wide.Carries value

theorem whole_new {value : OsString} (h : 0 ∉ value.units) : (new value).Whole :=
  ⟨value, rfl, new_carries_iff.mpr h⟩

end WideString

variable [Platform]

/-- `usize::try_from` on a `u32`. -/
def usizeTryFrom (value : UInt32) : SysM Nat :=
  if value.toNat ≤ Platform.usizeMax then return value.toNat else throw .countOverflow

theorem usizeTryFrom_eq (value : UInt32) : usizeTryFrom value = pure value.toNat :=
  if_pos (Platform.pointerWidth.lt_usizeMax value)

end RestartManager
