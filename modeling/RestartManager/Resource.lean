import RestartManager.Application

/-! Resource collections registered with Restart Manager in one batch. -/
namespace RestartManager

structure ResourceBatch where
  files : List PathBuf
  processes : List ProcessIdentity
  services : List OsString
  deriving DecidableEq, Repr

namespace ResourceBatch

def new : ResourceBatch := { files := [], processes := [], services := [] }

def addFile (batch : ResourceBatch) (file : PathBuf) : ResourceBatch :=
  { batch with files := batch.files ++ [file] }

def addProcess (batch : ResourceBatch) (process : ProcessIdentity) : ResourceBatch :=
  { batch with processes := batch.processes ++ [process] }

def addService (batch : ResourceBatch) (service : OsString) : ResourceBatch :=
  { batch with services := batch.services ++ [service] }

def isEmpty (batch : ResourceBatch) : Bool :=
  batch.files.isEmpty && batch.processes.isEmpty && batch.services.isEmpty

end ResourceBatch
end RestartManager
