import RestartManager.Sys.Convert

/-! Listing the applications that use the registered resources. Like the
filters, they are fetched until the answer fits the buffer. -/
namespace RestartManager

abbrev MAX_LIST_ATTEMPTS : Nat := 8

/-- The size of `RM_PROCESS_INFO`. -/
abbrev processInfoSize : Nat := 668

def rawApplication (value : RmProcessInfo) : SysResult RawApplication := do
  return {
    displayName := ← decodeFixed value.strAppName.toList
    serviceName := ← decodeFixed value.strServiceShortName.toList
    applicationType := value.applicationType
    status := value.appStatus
    restartable := value.bRestartable ≠ 0
    process := rawUniqueProcess value.process
    terminalSessionId := value.tsSessionId }

/-- A buffer of entries after a native call wrote these at its start. -/
def writeEntries (buffer entries : List RmProcessInfo) : List RmProcessInfo :=
  entries.take buffer.length ++ buffer.drop entries.length

variable [Platform]

/-- The loop of `affected_applications`, with the attempts that are left. -/
def fetchApplications (raw : UInt32) : Nat → UInt32 → SysM RawAffectedApplications
  | 0, _ => throw (.dataChanged ERROR_MORE_DATA)
  | attempts + 1, needed => do
      let capacity ← usizeTryFrom needed
      match ← sysCall (.tryReserveExact capacity processInfoSize) with
      | none => throw .allocationFailure
      | some _ =>
          let buffer := List.replicate capacity default
          let supplied := needed
          let reply ← sysCall (.rmGetList raw supplied)
          if reply.code = ERROR_MORE_DATA then fetchApplications raw attempts reply.needed
          else do
            ofResult (check reply.code)
            let returned ← usizeTryFrom reply.supplied
            let buffer := writeEntries buffer reply.entries
            if returned > buffer.length then
              throw (.malformedOutput "RmGetList returned more entries than the supplied buffer")
            else do
              let applications ← ofResult ((buffer.take returned).mapM rawApplication)
              return { applications, rebootReasons := reply.rebootReasons }

def affectedApplications (raw : UInt32) : SysM RawAffectedApplications := do
  let first ← sysCall (.rmGetList raw 0)
  if first.code = ERROR_SUCCESS then
    return { applications := [], rebootReasons := first.rebootReasons }
  else if first.code ≠ ERROR_MORE_DATA then throw (.os first.code)
  else fetchApplications raw MAX_LIST_ATTEMPTS first.needed

end RestartManager
