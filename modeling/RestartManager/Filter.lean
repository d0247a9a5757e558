import RestartManager.Input

/-! Typed shutdown and restart filters. -/
namespace RestartManager

inductive TargetKind
  | executable (path : PathBuf)
  | process (process : ProcessIdentity)
  | service (name : OsString)
  deriving DecidableEq, Repr

/-- The executable, process, or service selected by a filter. -/
structure FilterTarget where
  kind : TargetKind
  deriving DecidableEq, Repr

namespace FilterTarget

variable [Platform]

def executable (path : PathBuf) : CrateM FilterTarget := do
  let path ← absoluteUserPath path "an executable path"
  return ⟨.executable path⟩

def process (process : ProcessIdentity) : FilterTarget := ⟨.process process⟩

def service (name : OsString) : Except Error FilterTarget := do
  validateUserOsValue name "a service short name"
  return ⟨.service name⟩

def asExecutable (target : FilterTarget) : Option PathBuf :=
  match target.kind with
  | .executable path => some path
  | .process _ | .service _ => none

def asProcess (target : FilterTarget) : Option ProcessIdentity :=
  match target.kind with
  | .process process => some process
  | .executable _ | .service _ => none

def asService (target : FilterTarget) : Option OsString :=
  match target.kind with
  | .service name => some name
  | .executable _ | .process _ => none

def fromRawExecutable (path : PathBuf) : Except Error FilterTarget := do
  validateAbsoluteOsPath path "executable filter path"
  return ⟨.executable path⟩

def fromRawProcess (process : ProcessIdentity) : FilterTarget := .process process

def fromRawService (name : OsString) : Except Error FilterTarget := do
  validateOsOutput name "service filter name"
  return ⟨.service name⟩

end FilterTarget

/-- The official `RM_FILTER_ACTION` behaviour. -/
inductive FilterAction
  | preventRestart
  | preventShutdown
  deriving DecidableEq, Repr

structure Filter where
  target : FilterTarget
  action : FilterAction
  deriving DecidableEq, Repr

end RestartManager
