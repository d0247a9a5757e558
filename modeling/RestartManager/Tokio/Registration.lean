import RestartManager.Session.Registration
import RestartManager.Tokio.Executions

/-! Registration in every role: each method of a primary or a joined session,
called directly or served by the worker, hands over its batch whole or not at
all. -/
namespace RestartManager

open Interaction Program Transition

/-! ### Methods -/

/-- The batch of an operation that registers resources. -/
def Op.batch? : Op → Option ResourceBatch
  | .registerResources resources => some resources
  | .registerFiles files => some ⟨files, [], []⟩
  | .registerProcesses processes => some ⟨[], processes, []⟩
  | .registerServices services => some ⟨[], [], services⟩
  | _ => none

namespace ResourceBatch

theorem foldl_addFile (files : List PathBuf) (batch : ResourceBatch) :
    files.foldl addFile batch = { batch with files := batch.files ++ files } := by
  induction files generalizing batch with
  | nil => rw [List.append_nil]; rfl
  | cons file files ih => rw [List.foldl_cons, ih, addFile, List.append_assoc]; rfl

theorem foldl_addProcess (processes : List ProcessIdentity) (batch : ResourceBatch) :
    processes.foldl addProcess batch = { batch with processes := batch.processes ++ processes } := by
  induction processes generalizing batch with
  | nil => rw [List.append_nil]; rfl
  | cons process processes ih => rw [List.foldl_cons, ih, addProcess, List.append_assoc]; rfl

theorem foldl_addService (services : List OsString) (batch : ResourceBatch) :
    services.foldl addService batch = { batch with services := batch.services ++ services } := by
  induction services generalizing batch with
  | nil => rw [List.append_nil]; rfl
  | cons service services ih => rw [List.foldl_cons, ih, addService, List.append_assoc]; rfl

end ResourceBatch

section

variable {op : Op} {batch : ResourceBatch}

/-- A form of a method sends the command of the batch with its elements. -/
theorem borrowed_register (handle : Tokio.Handle) (h : op.batch? = some batch) :
    handle.borrowed op = handle.borrowed (.registerResources batch) := by
  unfold Op.batch? at h
  split at h <;> cases h
  · rfl
  · cases handle <;> simp [Tokio.Handle.borrowed, ResourceBatch.foldl_addFile, ResourceBatch.new]
  · cases handle <;> simp [Tokio.Handle.borrowed, ResourceBatch.foldl_addProcess, ResourceBatch.new]
  · cases handle <;> simp [Tokio.Handle.borrowed, ResourceBatch.foldl_addService, ResourceBatch.new]

variable [Platform]

/-- A form of a method makes the calls of the batch with its elements. -/
theorem perform_register (value : Value) (h : op.batch? = some batch) :
    perform value op = perform value (.registerResources batch) := by
  have hSession (session : RestartSession) :
      performSession session op = performSession session (.registerResources batch) := by
    unfold Op.batch? at h
    split at h <;> cases h
    · rfl
    · simp [performSession, RestartSession.registerFiles, RestartSession.registerResources,
        ResourceBatch.foldl_addFile, ResourceBatch.new]
    · simp [performSession, RestartSession.registerProcesses, RestartSession.registerResources,
        ResourceBatch.foldl_addProcess, ResourceBatch.new]
    · simp [performSession, RestartSession.registerServices, RestartSession.registerResources,
        ResourceBatch.foldl_addService, ResourceBatch.new]
  have hJoined (session : JoinedSession) :
      performJoined session op = performJoined session (.registerResources batch) := by
    unfold Op.batch? at h
    split at h <;> cases h
    · rfl
    · simp [performJoined, JoinedSession.registerFiles, JoinedSession.registerResources,
        ResourceBatch.foldl_addFile, ResourceBatch.new]
    · simp [performJoined, JoinedSession.registerProcesses, JoinedSession.registerResources,
        ResourceBatch.foldl_addProcess, ResourceBatch.new]
    · simp [performJoined, JoinedSession.registerServices, JoinedSession.registerResources,
        ResourceBatch.foldl_addService, ResourceBatch.new]
  have hOp : op ≠ .dropValue := by
    rintro rfl
    cases h
  cases value with
  | session session =>
      rw [perform_session hOp, hSession]
      rfl
  | joined session =>
      rw [perform_joined hOp, hJoined]
      rfl
  | _ =>
      unfold Op.batch? at h
      split at h <;> cases h <;> rfl

end

/-! ### The worker -/

namespace Tokio

variable [Platform]

section

variable {op : Op} {batch : ResourceBatch} {command : Command} {state : WorkerState}

omit [Platform] in
/-- A registration is taken by the session whose handle has the method. -/
theorem Handle.Matches.registers {handle : Handle} (hMatches : handle.Matches state)
    (hSends : handle.Sends op command) (hBatch : op.batch? = some batch) :
    (∃ session, state = .primary session ∧ command = .primaryRegister batch) ∨
      ∃ session, state = .joined session ∧ command = .joinedRegister batch := by
  have hBorrowed : handle.borrowed (.registerResources batch) = some command := by
    rcases hSends with hBorrowed | ⟨future, hConsumed⟩
    · rwa [← borrowed_register handle hBatch]
    · unfold Op.batch? at hBatch
      split at hBatch <;> cases hBatch <;> cases handle <;> cases hConsumed
  cases hMatches with
  | session => exact .inl ⟨_, rfl, (Option.some.inj hBorrowed).symm⟩
  | joined => exact .inr ⟨_, rfl, (Option.some.inj hBorrowed).symm⟩
  | pending => cases hBorrowed
  | completion => cases hBorrowed

theorem exec_replying {method : CrateM Unit} {trace : Trace}
    {answer : Except Payload Reply × WorkerState}
    (run : (replying state method .done).Exec trace answer) :
    ∃ result, answer = (.ok (.done result), state) ∧ method.run.Exec trace result := by
  obtain ⟨first, last, result, rfl, method, final⟩ := exec_bind_iff.mp run
  obtain ⟨rfl, rfl⟩ := exec_done_iff.mp final
  rw [List.append_nil]
  exact ⟨result, rfl, method⟩

end

/-- A registration in each of its roles. -/
structure Registration : Prop where
  primary (session : RestartSession) (batch : ResourceBatch) {trace : Trace}
      {result : Except Error Unit} (run : (session.registerResources batch).run.Exec trace result) :
      AllOrNothing session.core.handle.raw batch trace result
  joined (session : JoinedSession) (batch : ResourceBatch) {trace : Trace}
      {result : Except Error Unit} (run : (session.registerResources batch).run.Exec trace result) :
      AllOrNothing session.core.handle.raw batch trace result
  /-- The other forms are the registration of the batch with their elements,
  whether they are called on a session or send a command. -/
  forms (op : Op) (batch : ResourceBatch) (h : op.batch? = some batch) :
      (∀ value, perform value op = perform value (.registerResources batch)) ∧
      ∀ handle : Handle, handle.borrowed op = handle.borrowed (.registerResources batch)
  /-- The worker registers between taking the command and answering it, on the
  session that it owns. -/
  worker {opening : Opening} {history first second : List Label} {s : System} {ticket : Nat}
      {reply : Reply} {op : Op} {command : Command} {batch : ResourceBatch}
      (run : Run (Step opening) .init₀ history s)
      (answered : history = first ++ .answer ticket reply :: second)
      (sent : (sent first)[ticket]? = some (op, command)) (h : op.batch? = some batch) :
      ∃ before later t core result, first = before ++ .execute command :: later ∧
        executed later = [] ∧ Run (Step opening) .init₀ before t ∧
        (t.worker = .idle (.primary ⟨core⟩) ∨ t.worker = .idle (.joined ⟨core⟩)) ∧
        reply = .done result ∧ AllOrNothing core.handle.raw batch (calls later) result

/-- The calls of a registration that was answered are those of its method. -/
theorem answered_register {opening : Opening} {history first second : List Label} {s : System}
    {ticket : Nat} {reply : Reply} {op : Op} {command : Command} {batch : ResourceBatch}
    (run : Run (Step opening) .init₀ history s)
    (hAnswered : history = first ++ .answer ticket reply :: second)
    (hSent : (sent first)[ticket]? = some (op, command)) (hBatch : op.batch? = some batch) :
    ∃ before later t core result, first = before ++ .execute command :: later ∧
      executed later = [] ∧ Run (Step opening) .init₀ before t ∧
      (t.worker = .idle (.primary ⟨core⟩) ∨ t.worker = .idle (.joined ⟨core⟩)) ∧
      reply = .done result ∧ AllOrNothing core.handle.raw batch (calls later) result := by
  subst hAnswered
  obtain ⟨u, v, hFirst, step, -⟩ := run.split
  generalize hLabel : Label.answer ticket reply = l at step
  cases step <;> cases hLabel
  case answer taken state hWorker =>
    obtain ⟨before, later, t, idle, queue, rfl, hNone, hBefore, hIdle, hQueue, hSteps⟩ :=
      executing_began hFirst hWorker
    obtain ⟨handle, op', hMatches, hSends, hSent'⟩ := taken_sends hBefore hIdle hQueue
    have hSame : (sent (before ++ .execute taken :: later))[ticket]? = some (op', taken) := by
      have hLength := (List.getElem?_eq_some_iff.mp hSent').1
      rw [sent, List.filterMap_append]
      exact (List.getElem?_append_left hLength).trans hSent'
    obtain ⟨rfl, rfl⟩ := Prod.mk.inj (Option.some.inj (hSent.symm.trans hSame))
    rcases hMatches.registers hSends hBatch with ⟨⟨core⟩, rfl, rfl⟩ | ⟨⟨core⟩, rfl, rfl⟩
    · obtain ⟨result, hAnswer, hMethod⟩ := exec_replying hSteps
      obtain ⟨hReply, -⟩ := Prod.mk.inj hAnswer
      exact ⟨before, later, t, core, result, rfl, hNone, hBefore, .inl hIdle, Except.ok.inj hReply,
        core.registers_all_or_nothing hMethod⟩
    · obtain ⟨result, hAnswer, hMethod⟩ := exec_replying hSteps
      obtain ⟨hReply, -⟩ := Prod.mk.inj hAnswer
      exact ⟨before, later, t, core, result, rfl, hNone, hBefore, .inr hIdle, Except.ok.inj hReply,
        core.registers_all_or_nothing hMethod⟩

end Tokio

/-- Registration is all or nothing in every role. -/
theorem registration [Platform] : Tokio.Registration where
  primary session _ _ _ run := session.core.registers_all_or_nothing run
  joined session _ _ _ run := session.core.registers_all_or_nothing run
  forms _ _ h := ⟨fun value => perform_register value h, fun handle => borrowed_register handle h⟩
  worker run answered sent h := Tokio.answered_register run answered sent h

end RestartManager
