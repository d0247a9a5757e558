import RestartManager.Filter
import RestartManager.Sys.Convert

/-! Conversions between the raw values of the adapter and the public types. -/
namespace RestartManager

def rawProcess (process : ProcessIdentity) : RawUniqueProcess :=
  { pid := process.pid, startTime := process.creationTime100nsSince1601 }

/-- The unchecked constructor; each caller has excluded the two sentinels. -/
def processFromRaw (process : RawUniqueProcess) (h₀ : process.pid ≠ 0)
    (h₁ : process.pid ≠ INVALID_NATIVE_ID) : ProcessIdentity :=
  ⟨process.pid, process.startTime, h₀, h₁⟩

/-- The closure that `application_report` maps over the entries. -/
def affectedApplication (application : RawApplication) : AffectedApplication :=
  { displayName := application.displayName
    serviceName :=
      if application.serviceName.isEmpty then none else some application.serviceName
    applicationType := .fromRaw application.applicationType
    status := .fromBitsRetain application.status
    restartable := application.restartable
    process :=
      if h : application.process.pid ≠ 0 ∧ application.process.pid ≠ INVALID_NATIVE_ID then
        some (processFromRaw application.process h.1 h.2)
      else none
    terminalSessionId :=
      if application.terminalSessionId ≠ INVALID_NATIVE_ID then
        some application.terminalSessionId
      else none }

def applicationReport (raw : RawAffectedApplications) : AffectedApplications :=
  { applications := raw.applications.map affectedApplication
    rebootReasons := .fromBitsRetain raw.rebootReasons }

/-- The chain of tests ends in an `unreachable!`, which is a panic. -/
def rawFilterTarget (target : FilterTarget) : Except Payload RawFilterTarget :=
  match target.asExecutable with
  | some path => .ok (.executable path)
  | none =>
      match target.asProcess with
      | some process => .ok (.process (rawProcess process))
      | none =>
          match target.asService with
          | some service => .ok (.service service)
          | none => .error (.expect "validated filter targets have exactly one identity")

/-- The panic is unreachable. -/
theorem rawFilterTarget_eq_ok (target : FilterTarget) : rawFilterTarget target = .ok
    (match target.kind with
    | .executable path => .executable path
    | .process process => .process (rawProcess process)
    | .service name => .service name) := by
  obtain ⟨kind⟩ := target
  cases kind <;> rfl

def rawFilterAction : FilterAction → Int32
  | .preventRestart => 1
  | .preventShutdown => 2

variable [Platform]

def filterFromRaw (filter : RawFilter) : Except Error Filter := do
  let target ← match filter.target with
    | .executable path => FilterTarget.fromRawExecutable path
    | .process process =>
        if h : process.pid = 0 ∨ process.pid = INVALID_NATIVE_ID then
          .error (.new .malformedOsData none "Windows returned an invalid process filter identity")
        else
          .ok (.fromRawProcess (processFromRaw process (fun h' => h (.inl h')) fun h' => h (.inr h')))
    | .service service => FilterTarget.fromRawService service
  let action ←
    if filter.action = 1 then .ok FilterAction.preventRestart
    else if filter.action = 2 then .ok .preventShutdown
    else .error (.new .malformedOsData none "Windows returned an unknown filter action")
  return { target, action }

end RestartManager
