import RestartManager.Interaction.Resampling
import RestartManager.Sys.Applications
import RestartManager.Sys.FilterChain

/-! Listing the filters of a session. The list may change between the calls,
so the adapter asks for its size and fetches until the answer fits. -/
namespace RestartManager

open Platform Interaction

variable [Platform]

/-- The buffer after a native call wrote these bytes at its start. -/
def AlignedBuffer.write (buffer : AlignedBuffer) (written : List UInt8) : AlignedBuffer where
  base := buffer.base
  bytes := written.take buffer.bytes.length ++ buffer.bytes.drop written.length
  base_ne_zero := buffer.base_ne_zero
  base_add_le := by
    have := buffer.base_add_le
    simp
    omega

@[simp] theorem AlignedBuffer.byteCapacity_write (buffer : AlignedBuffer) (written : List UInt8) :
    (buffer.write written).byteCapacity = buffer.byteCapacity := by
  simp [byteCapacity, write]
  omega

@[simp] theorem AlignedBuffer.write_nil (buffer : AlignedBuffer) : buffer.write [] = buffer := by
  simp [write]

/-- The loop of `get_filters`, with the attempts that are left. -/
def fetchFilters (raw : UInt32) : Nat → UInt32 → SysM (List RawFilter)
  | 0, _ => throw (.dataChanged ERROR_MORE_DATA)
  | attempts + 1, needed =>
      if needed = 0 then return []
      else do
        let buffer ← AlignedBuffer.new needed
        let supplied := needed
        let reply ← sysCall (.rmGetFilterList raw (some buffer.base) supplied)
        let returnedNeeded := reply.needed
        if reply.code = ERROR_MORE_DATA then fetchFilters raw attempts returnedNeeded
        else do
          ofResult (check reply.code)
          let valid := if returnedNeeded = 0 then supplied else returnedNeeded
          if valid > supplied then
            throw (.malformedOutput
              "RmGetFilterList reported a length larger than its buffer")
          else parseFilterBuffer (buffer.write reply.written) valid.toNat

def getFilters (raw : UInt32) : SysM (List RawFilter) := do
  let first ← sysCall (.rmGetFilterList raw none 0)
  if first.code = ERROR_SUCCESS ∧ first.needed = 0 then return []
  else if first.code ≠ ERROR_SUCCESS ∧ first.code ≠ ERROR_MORE_DATA then throw (.os first.code)
  else fetchFilters raw MAX_LIST_ATTEMPTS first.needed

/-! ### A changing list -/

/-- The filter lists that a session holds at its successive native calls,
each with the size and the bytes of its encoding. The bytes depend on where
the buffer is, since strings are referred to by address. -/
structure FilterHistory where
  list : Nat → List RawFilter
  size : Nat → UInt32
  encode : Nat → Nat → List UInt8
  encode_length : ∀ i base, (encode i base).length = (size i).toNat
  /-- A whole number of words that covers an encoded list fits the address
  space, as it must to be allocated. -/
  size_le : ∀ i, (size i).toNat + (pointerWidth.bytes - 1) ≤ usizeMax
  size_nil : ∀ i, list i = [] → size i = 0
  well_formed : ∀ i (buffer : AlignedBuffer), list i ≠ [] →
    buffer.bytes.take (size i).toNat = encode i buffer.base →
    FilterChain buffer (size i).toNat 0 (list i)

namespace FilterHistory

variable (history : FilterHistory)

/-- What `RmGetFilterList` answers at its call number `i`. -/
def Answers (i : Nat) (buffer : Option Nat) (supplied : UInt32) (reply : GetFilterListReply) :
    Prop :=
  reply.needed = history.size i ∧
    if history.size i ≤ supplied then
      reply.code = ERROR_SUCCESS ∧ ∀ base, buffer = some base → reply.written = history.encode i base
    else reply.code = ERROR_MORE_DATA

/-- The state is the number of list calls made. At most nine are allowed, and
every reservation is granted. -/
def contract (raw : UInt32) : Contract Call.Response Nat where
  guarantee n c := match c with
    | .rmGetFilterList raw' _ _ => raw' = raw ∧ n ≤ MAX_LIST_ATTEMPTS
    | .tryReserveExact .. | .readUnaligned .. => True
    | _ => False
  rely n c := match c with
    | .rmGetFilterList _ buffer supplied => history.Answers n buffer supplied
    | .tryReserveExact .. => fun response => response ≠ none
    | _ => fun _ => True
  next n c _ := match c with
    | .rmGetFilterList .. => n + 1
    | _ => n

/-- The encoded sizes, as the code compares them. -/
def sizes (i : Nat) : Nat := (history.size i).toNat

end FilterHistory
end RestartManager
