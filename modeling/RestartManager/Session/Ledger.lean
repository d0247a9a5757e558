import RestartManager.Session.Performed
import RestartManager.Session.RecoveryObligation

/-! What the history of a session records about its shutdown and its restart,
and how what the owner holds agrees with it. -/
namespace RestartManager

open Interaction Contract Program

variable [Platform]

/-! ### Records -/

/-- The outcome that an `RmShutdown` gives, from its code and its reports. -/
def Entry.shutdown? : Entry → Option OperationOutcome
  | .call ⟨.rmShutdown _ _ trampoline, reply⟩ =>
      some (OperationReply.outcome reply .shutdown trampoline)
  | _ => none

/-- The outcome that an `RmRestart` gives. -/
def Entry.restart? : Entry → Option OperationOutcome
  | .call ⟨.rmRestart _ _ trampoline, reply⟩ =>
      some (OperationReply.outcome reply .restart trampoline)
  | _ => none

def Entry.op? : Entry → Option Op
  | .op operation => some operation
  | .call _ => none

def shutdowns (history : List Entry) : List OperationOutcome := history.filterMap Entry.shutdown?

def restarts (history : List Entry) : List OperationOutcome := history.filterMap Entry.restart?

/-- A callback that was given to `restart_with_progress` panics. -/
def RestartPanics (history : List Entry) : Prop :=
  ∃ first second callback progress payload,
    history = first ++ .call (panicked progress payload) :: second ∧
      (first.filterMap Entry.op?).getLast? = some (.restartWithProgress callback)

section

variable {history : List Entry} {op : Op} {trace : Trace}

/-- An operation adds the shutdowns that its calls made. -/
theorem shutdowns_perform : shutdowns (history ++ .op op :: trace.map .call) =
    shutdowns history ++ shutdowns (trace.map .call) := by
  rw [shutdowns, List.filterMap_append, List.filterMap_cons_none rfl]
  rfl

/-- An operation adds the restarts that its calls made. -/
theorem restarts_perform : restarts (history ++ .op op :: trace.map .call) =
    restarts history ++ restarts (trace.map .call) := by
  rw [restarts, List.filterMap_append, List.filterMap_cons_none rfl]
  rfl

/-- Calls are no operations. -/
theorem ops_calls : (trace.map Entry.call).filterMap Entry.op? = [] := by
  rw [List.filterMap_eq_nil_iff]
  intro e hMem
  obtain ⟨event, -, rfl⟩ := List.mem_map.mp hMem
  rfl

theorem filterMap_op {rest : List Entry} :
    (Entry.op op :: rest).filterMap Entry.op? = op :: rest.filterMap Entry.op? := rfl

/-- A session was left stopped by an operation that says so. -/
theorem left_perform : Entry.op .leaveStopped ∈ history ++ .op op :: trace.map .call ↔
    Entry.op .leaveStopped ∈ history ∨ op = .leaveStopped := by
  simp [eq_comm]

/-- A restart panicked if one did before or the callback of this one does. -/
theorem restartPanics_perform : RestartPanics (history ++ .op op :: trace.map .call) ↔
    RestartPanics history ∨
      ((∃ callback, op = .restartWithProgress callback) ∧
        ∃ progress payload, panicked progress payload ∈ trace) := by
  constructor
  · rintro ⟨first, second, callback, progress, payload, hSplit, hLast⟩
    rcases List.append_eq_append_iff.mp hSplit with ⟨rest, rfl, hRest⟩ | ⟨rest, rfl, hRest⟩
    · cases rest with
      | nil => cases hRest
      | cons e rest =>
          obtain ⟨rfl, hCalls⟩ := List.cons.inj hRest
          obtain ⟨before, after, rfl, rfl, hEvent⟩ := List.map_eq_append_iff.mp hCalls
          obtain ⟨event, after, rfl, hSame, rfl⟩ := List.map_eq_cons_iff.mp hEvent
          cases hSame
          rw [List.filterMap_append, filterMap_op, ops_calls] at hLast
          simp at hLast
          exact .inr ⟨⟨callback, hLast⟩, progress, payload, by simp⟩
    · cases rest with
      | nil => cases hRest
      | cons e rest =>
          obtain ⟨rfl, -⟩ := List.cons.inj hRest
          exact .inl ⟨first, rest, callback, progress, payload, rfl, hLast⟩
  · rintro (⟨first, second, callback, progress, payload, rfl, hLast⟩ |
      ⟨⟨callback, rfl⟩, progress, payload, hMem⟩)
    · exact ⟨first, second ++ .op op :: trace.map .call, callback, progress, payload, by simp, hLast⟩
    · obtain ⟨before, after, rfl⟩ := List.append_of_mem hMem
      refine ⟨history ++ .op (.restartWithProgress callback) :: before.map .call, after.map .call,
        callback, progress, payload, by simp, ?_⟩
      rw [List.filterMap_append, filterMap_op, ops_calls]
      simp

theorem shutdowns_eq_nil (h : ∀ event ∈ trace, ¬event.1.IsShutdown) :
    shutdowns (trace.map .call) = [] := by
  rw [shutdowns, List.filterMap_eq_nil_iff]
  intro e hMem
  obtain ⟨⟨c, response⟩, hEvent, rfl⟩ := List.mem_map.mp hMem
  have hNot := h _ hEvent
  cases c <;> first | rfl | exact absurd trivial hNot

theorem restarts_eq_nil (h : ∀ event ∈ trace, ¬event.1.IsRestart) :
    restarts (trace.map .call) = [] := by
  rw [restarts, List.filterMap_eq_nil_iff]
  intro e hMem
  obtain ⟨⟨c, response⟩, hEvent, rfl⟩ := List.mem_map.mp hMem
  have hNot := h _ hEvent
  cases c <;> first | rfl | exact absurd trivial hNot

end

/-! ### The ledger of an owner -/

/-- What the owner holds agrees with the history. Before a shutdown nothing is
recorded; afterwards its outcome is kept, with that of the one restart. -/
inductive Told (history : List Entry) : Value → Prop
  | unshut {value : Value}
      (unarmed : (∃ session, value = .session session) ∨ (∃ session, value = .joined session) ∨
        ∃ error, value = .shutdownNotStarted error)
      (shutdown : shutdowns history = []) (restart : restarts history = [])
      (left : .op .leaveStopped ∉ history) (calm : ¬RestartPanics history) : Told history value
  | armed {core : SessionCore} {outcome : OperationOutcome} {value : Value}
      (pending : value = .pending ⟨some core, some outcome⟩ ∨
        ∃ error, value = .restartNotStarted ⟨⟨some core, some outcome⟩, error⟩)
      (shutdown : shutdowns history = [outcome]) (restart : restarts history = [])
      (left : .op .leaveStopped ∉ history) (calm : ¬RestartPanics history) : Told history value
  | restarted {core : SessionCore} {outcome restart : OperationOutcome}
      (shutdown : shutdowns history = [outcome]) (restarts : restarts history = [restart])
      (left : .op .leaveStopped ∉ history) (calm : ¬RestartPanics history) :
      Told history (.completion ⟨core, ⟨outcome, some restart⟩⟩)
  | left {core : SessionCore} {outcome : OperationOutcome}
      (shutdown : shutdowns history = [outcome]) (restart : restarts history = [])
      (left : .op .leaveStopped ∈ history) (calm : ¬RestartPanics history) :
      Told history (.completion ⟨core, ⟨outcome, none⟩⟩)
  | gone (once : (restarts history).length ≤ 1) (calm : ¬RestartPanics history) : Told history .gone
  | unwound (twice : (restarts history).length = 2) (panics : RestartPanics history) :
      Told history .gone

section

variable {history : List Entry} {value value' : Value} {op : Op} {trace : Trace} {output : Output}

/-- The calls around a native call with progress are not recorded. -/
theorem filterMap_progress {α : Type} {f : Entry → Option α} {callback : Callback}
    {values : List Progress} {native : Event} {rest : Trace} {installed : Bool}
    (hInstall : f (.call ⟨.installLease, installed⟩) = none)
    (hDelivered : ∀ progress, f (.call (callback.delivered progress)) = none) :
    ((⟨.installLease, installed⟩ :: native :: (values.map callback.delivered ++ rest)).map
      Entry.call).filterMap f = (f (.call native)).toList ++ (rest.map .call).filterMap f := by
  have hNone : ((values.map callback.delivered).map Entry.call).filterMap f = [] := by
    rw [List.filterMap_eq_nil_iff]
    intro e hMem
    obtain ⟨event, hEvent, rfl⟩ := List.mem_map.mp hMem
    obtain ⟨progress, -, rfl⟩ := List.mem_map.mp hEvent
    exact hDelivered progress
  rw [List.map_cons, List.filterMap_cons_none hInstall, List.map_cons, List.map_append]
  cases hNative : f (.call native) with
  | none =>
      rw [List.filterMap_cons_none hNative, List.filterMap_append, hNone]
      rfl
  | some a =>
      rw [List.filterMap_cons_some hNative, List.filterMap_append, hNone]
      rfl

/-- An operation with progress records the native call between its lease and its reports. -/
theorem shutdowns_progress {callback : Callback} {values : List Progress} {native : Event}
    {rest : Trace} : shutdowns ((⟨.installLease, true⟩ :: native ::
      (values.map callback.delivered ++ rest)).map .call) =
        (Entry.call native).shutdown?.toList ++ shutdowns (rest.map .call) :=
  filterMap_progress rfl fun progress => by cases callback <;> rfl

theorem restarts_progress {callback : Callback} {values : List Progress} {native : Event}
    {rest : Trace} : restarts ((⟨.installLease, true⟩ :: native ::
      (values.map callback.delivered ++ rest)).map .call) =
        (Entry.call native).restart?.toList ++ restarts (rest.map .call) :=
  filterMap_progress rfl fun progress => by cases callback <;> rfl

/-- The end of a session shuts nothing down. -/
theorem Ending.shutdowns {raw : UInt32} (h : Ending raw trace) : shutdowns (trace.map .call) = [] :=
  shutdowns_eq_nil fun event hMem => by rw [h event hMem]; exact id

/-- The end of a session restarts nothing. -/
theorem Ending.restarts {raw : UInt32} (h : Ending raw trace) : restarts (trace.map .call) = [] :=
  restarts_eq_nil fun event hMem => by rw [h event hMem]; exact id

/-- A recovery by drop is one restart. -/
theorem records_recovery {core : SessionCore} {shutdown : Option OperationOutcome}
    (h : (RestartPending.mk (some core) shutdown).drop.Exec trace ()) :
    shutdowns (trace.map .call) = [] ∧ (restarts (trace.map .call)).length = 1 := by
  obtain ⟨reply, rest, rfl, hDrop⟩ := exec_pending_drop_iff.mp h
  have hEnding := ending_of_drop hDrop
  have hShutdowns := hEnding.shutdowns
  have hRestarts := hEnding.restarts
  constructor
  · exact hShutdowns
  · change (_ :: restarts (rest.map .call)).length = 1
    rw [hRestarts]
    rfl

/-- An operation that adds nothing to the records. -/
structure Unrecorded (op : Op) (trace : Trace) : Prop where
  shutdown : shutdowns (trace.map .call) = []
  restart : restarts (trace.map .call) = []
  stays : op ≠ .leaveStopped
  calm : ∀ progress payload, panicked progress payload ∉ trace

/-- Calls before the shutdown, and those that end the session, are not recorded. -/
theorem Unrecorded.of_calls (hStays : op ≠ .leaveStopped)
    (hCalls : ∀ event ∈ trace, event.1.BeforeShutdown ∨ ∃ raw, event.1 = .rmEndSession raw) :
    Unrecorded op trace where
  shutdown := shutdowns_eq_nil fun event hMem => by
    obtain ⟨c, response⟩ := event
    rcases hCalls _ hMem with h | ⟨raw, rfl⟩
    · cases c <;> first | exact id | simp [Call.BeforeShutdown, Call.Registers, Call.Reports,
        Call.ChangesFilter, Call.ListsFilters] at h
    · exact id
  restart := restarts_eq_nil fun event hMem => by
    obtain ⟨c, response⟩ := event
    rcases hCalls _ hMem with h | ⟨raw, rfl⟩
    · cases c <;> first | exact id | simp [Call.BeforeShutdown, Call.Registers, Call.Reports,
        Call.ChangesFilter, Call.ListsFilters] at h
    · exact id
  stays := hStays
  calm progress payload hMem := by
    rcases hCalls _ hMem with h | ⟨raw, h⟩
    · simp [panicked, Call.BeforeShutdown, Call.Registers, Call.Reports, Call.ChangesFilter,
        Call.ListsFilters] at h
    · cases h

theorem Ending.unrecorded {raw : UInt32} (h : Ending raw trace) (hStays : op ≠ .leaveStopped) :
    Unrecorded op trace := .of_calls hStays fun event hMem => .inr ⟨raw, h event hMem⟩

theorem Unrecorded.nil (hStays : op ≠ .leaveStopped) : Unrecorded op [] :=
  .of_calls hStays fun _ hMem => absurd hMem List.not_mem_nil

namespace Unrecorded

variable (h : Unrecorded op trace)

include h

/-- An unrecorded operation adds no shutdown. -/
theorem shutdowns_eq : shutdowns (history ++ .op op :: trace.map .call) = shutdowns history := by
  rw [shutdowns_perform, h.shutdown, List.append_nil]

/-- An unrecorded operation adds no restart. -/
theorem restarts_eq : restarts (history ++ .op op :: trace.map .call) = restarts history := by
  rw [restarts_perform, h.restart, List.append_nil]

/-- An unrecorded operation leaves nothing stopped that was not before. -/
theorem left_iff : Entry.op .leaveStopped ∈ history ++ .op op :: trace.map .call ↔
    Entry.op .leaveStopped ∈ history := by
  rw [left_perform, or_iff_left h.stays]

/-- No restart callback panics in an unrecorded operation. -/
theorem panics_iff : RestartPanics (history ++ .op op :: trace.map .call) ↔
    RestartPanics history := by
  rw [restartPanics_perform, or_iff_left]
  rintro ⟨-, progress, payload, hMem⟩
  exact h.calm progress payload hMem

end Unrecorded

/-- What is held after an operation that adds nothing agrees as before. -/
theorem Told.keep (h : Told history value) (hNone : Unrecorded op trace) :
    Told (history ++ .op op :: trace.map .call) value := by
  cases h with
  | unshut unarmed shutdown restart left calm =>
      exact .unshut unarmed (hNone.shutdowns_eq.trans shutdown) (hNone.restarts_eq.trans restart)
        (hNone.left_iff.not.mpr left) (hNone.panics_iff.not.mpr calm)
  | armed pending shutdown restart left calm =>
      exact .armed pending (hNone.shutdowns_eq.trans shutdown) (hNone.restarts_eq.trans restart)
        (hNone.left_iff.not.mpr left) (hNone.panics_iff.not.mpr calm)
  | restarted shutdown restart left calm =>
      exact .restarted (hNone.shutdowns_eq.trans shutdown) (hNone.restarts_eq.trans restart)
        (hNone.left_iff.not.mpr left) (hNone.panics_iff.not.mpr calm)
  | left shutdown restart left calm =>
      exact .left (hNone.shutdowns_eq.trans shutdown) (hNone.restarts_eq.trans restart)
        (hNone.left_iff.mpr left) (hNone.panics_iff.not.mpr calm)
  | gone once calm =>
      exact .gone (by rwa [hNone.restarts_eq]) (hNone.panics_iff.not.mpr calm)
  | unwound twice panics =>
      exact .unwound (by rwa [hNone.restarts_eq]) (hNone.panics_iff.mpr panics)

/-- A value that is given up is forgotten. -/
theorem Told.release (h : Told history value) : Told history .gone := by
  cases h with
  | unshut unarmed shutdown restart left calm => exact .gone (by simp [restart]) calm
  | armed pending shutdown restart left calm => exact .gone (by simp [restart]) calm
  | restarted shutdown restart left calm => exact .gone (by simp [restart]) calm
  | left shutdown restart left calm => exact .gone (by simp [restart]) calm
  | gone once calm => exact .gone once calm
  | unwound twice panics => exact .unwound twice panics

/-- A session that was not shut down has nothing recorded. -/
theorem Told.of_session {session : RestartSession} (h : Told history (.session session)) :
    shutdowns history = [] ∧ restarts history = [] ∧ .op .leaveStopped ∉ history ∧
      ¬RestartPanics history := by
  cases h with
  | unshut unarmed shutdown restart left calm => exact ⟨shutdown, restart, left, calm⟩
  | armed pending => simp at pending

/-- A value before its restart has the one shutdown recorded, and nothing since. -/
theorem Told.of_armed {core : SessionCore} {outcome : OperationOutcome} (h : Told history value)
    (hValue : value = .pending ⟨some core, some outcome⟩ ∨
      ∃ error, value = .restartNotStarted ⟨⟨some core, some outcome⟩, error⟩) :
    shutdowns history = [outcome] ∧ restarts history = [] ∧ .op .leaveStopped ∉ history ∧
      ¬RestartPanics history := by
  cases h with
  | unshut unarmed =>
      rcases hValue with rfl | ⟨error, rfl⟩ <;> simp at unarmed
  | @armed core' outcome' _ pending shutdown restart left calm =>
      have hOutcome : outcome = outcome' := by
        rcases hValue with rfl | ⟨error, rfl⟩ <;> simp at pending <;> exact pending.2
      exact ⟨hOutcome ▸ shutdown, restart, left, calm⟩
  | restarted => simp at hValue
  | left => simp at hValue
  | gone => simp at hValue
  | unwound => simp at hValue

/-- The calls of a method with progress that returns contain no panic. -/
theorem not_panicked_completed {callback : Callback} {values : List Progress} {native : Event}
    {progress : Progress} {payload : Payload} (hNative : native ≠ panicked progress payload) :
    panicked progress payload ∉ (⟨.installLease, true⟩ :: native ::
      (values.map callback.delivered ++ [⟨.releaseLease, ()⟩]) : Trace) := by
  intro hMem
  simp only [List.mem_cons, List.mem_append, List.mem_map, List.not_mem_nil, or_false] at hMem
  rcases hMem with h | h | ⟨progress', -, h⟩ | h
  · cases h
  · exact hNative h.symm
  · cases callback <;> cases h
  · cases h

/-- An operation without a panicking restart callback keeps the history calm. -/
theorem calm_perform (hCalm : ¬RestartPanics history)
    (hOp : (∀ callback, op ≠ .restartWithProgress callback) ∨
      ∀ progress payload, panicked progress payload ∉ trace) :
    ¬RestartPanics (history ++ .op op :: trace.map .call) := by
  rw [restartPanics_perform, or_iff_right hCalm]
  rintro ⟨⟨callback, rfl⟩, progress, payload, hMem⟩
  rcases hOp with hOp | hOp
  · exact hOp callback rfl
  · exact hOp progress payload hMem

theorem left_stays (hLeft : Entry.op .leaveStopped ∉ history) (hStays : op ≠ .leaveStopped) :
    Entry.op .leaveStopped ∉ history ++ .op op :: trace.map .call := by
  rw [left_perform, or_iff_left hStays]
  exact hLeft

/-- A shutdown that returns arms its owner with the recorded outcome. -/
theorem Told.shutdown {session : RestartSession} {outcome : OperationOutcome}
    (h : Told history (.session session)) (hShutdowns : shutdowns (trace.map .call) = [outcome])
    (hRestarts : restarts (trace.map .call) = []) (hStays : op ≠ .leaveStopped)
    (hOp : ∀ callback, op ≠ .restartWithProgress callback) :
    Told (history ++ .op op :: trace.map .call) (.pending ⟨some session.core, some outcome⟩) := by
  obtain ⟨hShutdown, hRestart, hLeft, hCalm⟩ := h.of_session
  refine .armed (.inl rfl) ?_ ?_ (left_stays hLeft hStays) (calm_perform hCalm (.inl hOp))
  · rw [shutdowns_perform, hShutdown, hShutdowns, List.nil_append]
  · rw [restarts_perform, hRestart, hRestarts, List.nil_append]

/-- A restart that returns is the only one. -/
theorem Told.restart {core : SessionCore} {outcome restart : OperationOutcome}
    (h : Told history (.pending ⟨some core, some outcome⟩))
    (hShutdowns : shutdowns (trace.map .call) = []) (hRestarts : restarts (trace.map .call) = [restart])
    (hStays : op ≠ .leaveStopped) (hPanics : ∀ progress payload, panicked progress payload ∉ trace) :
    Told (history ++ .op op :: trace.map .call) (.completion ⟨core, ⟨outcome, some restart⟩⟩) := by
  obtain ⟨hShutdown, hRestart, hLeft, hCalm⟩ := h.of_armed (.inl rfl)
  refine .restarted ?_ ?_ (left_stays hLeft hStays) (calm_perform hCalm (.inr hPanics))
  · rw [shutdowns_perform, hShutdown, hShutdowns, List.append_nil]
  · rw [restarts_perform, hRestart, hRestarts, List.nil_append]

theorem Unrecorded.refused (hStays : op ≠ .leaveStopped) :
    Unrecorded op [⟨.installLease, false⟩] where
  shutdown := rfl
  restart := rfl
  stays := hStays
  calm progress payload hMem := by
    have h := List.mem_singleton.mp hMem
    cases h

/-- A refusal and its session are in the same place. -/
theorem Told.refusal {session : RestartSession} {error : Error} :
    Told history (.session session) ↔ Told history (.shutdownNotStarted ⟨session, error⟩) := by
  constructor
  · intro h
    obtain ⟨shutdown, restart, left, calm⟩ := h.of_session
    exact .unshut (.inr (.inr ⟨_, rfl⟩)) shutdown restart left calm
  · intro h
    cases h with
    | unshut unarmed shutdown restart left calm =>
        exact .unshut (.inl ⟨_, rfl⟩) shutdown restart left calm
    | armed pending => simp at pending

/-- A refused restart gives the value back with the same record. -/
theorem Told.restartRefusal {pending : RestartPending} {error : Error} :
    Told history (.pending pending) ↔ Told history (.restartNotStarted ⟨pending, error⟩) := by
  constructor
  · intro h
    cases h with
    | unshut unarmed => simp at unarmed
    | armed owned shutdown restart left calm =>
        obtain rfl : pending = ⟨some _, some _⟩ := by simpa using owned
        exact .armed (.inr ⟨error, rfl⟩) shutdown restart left calm
  · intro h
    cases h with
    | unshut unarmed => simp at unarmed
    | armed owned shutdown restart left calm =>
        obtain rfl : pending = ⟨some _, some _⟩ := by simpa using owned
        exact .armed (.inl rfl) shutdown restart left calm

/-- A drop of an armed value is the one restart. -/
theorem Told.abandon {core : SessionCore} {outcome : OperationOutcome} {recovery : Option OperationOutcome}
    (h : Told history value)
    (hValue : value = .pending ⟨some core, some outcome⟩ ∨
      ∃ error, value = .restartNotStarted ⟨⟨some core, some outcome⟩, error⟩)
    (hDrop : (RestartPending.mk (some core) recovery).drop.Exec trace ())
    (hOp : ∀ callback, op ≠ .restartWithProgress callback) :
    Told (history ++ .op op :: trace.map .call) .gone := by
  obtain ⟨-, hRestart, -, hCalm⟩ := h.of_armed hValue
  refine .gone ?_ (calm_perform hCalm (.inl hOp))
  rw [restarts_perform, hRestart, List.nil_append, (records_recovery hDrop).2]

/-- What is held stays in agreement through every operation. -/
theorem Told.perform (h : Told history value) (performed : Performed value op trace value' output) :
    Told (history ++ .op op :: trace.map .call) value' := by
  have hRelease (hNone : Unrecorded op trace) : Told (history ++ .op op :: trace.map .call) .gone :=
    (h.keep hNone).release
  cases performed with
  | borrowed stays calls returned =>
      exact h.keep (.of_calls stays fun event hMem => .inl (calls event hMem))
  | shutdown plain =>
      rcases plain with rfl | ⟨rfl, rfl⟩
      · exact h.shutdown rfl rfl (by intro h; cases h) (by intro callback h; cases h)
      · exact h.shutdown rfl rfl (by intro h; cases h) (by intro callback h; cases h)
  | @shutdownWithProgress session options callback trace result run =>
      have hStays : Op.shutdownWithProgress options callback ≠ .leaveStopped := by intro h; cases h
      have hOther (callback' : Callback) :
          Op.shutdownWithProgress options callback ≠ .restartWithProgress callback' := by
        intro h
        cases h
      cases run with
      | refused => exact Told.refusal.mp (h.keep (.refused hStays))
      | completed => exact h.shutdown shutdowns_progress restarts_progress hStays hOther
      | panicked reached user dropped =>
          obtain ⟨-, hRestart, -, hCalm⟩ := h.of_session
          refine .gone ?_ (calm_perform hCalm (.inl hOther))
          rw [restarts_perform, hRestart, restarts_progress]
          exact (records_recovery dropped).2.le
  | shutdownOutcome => exact h.keep (.nil (by intro h; cases h))
  | restart =>
      exact h.restart rfl rfl (by intro h; cases h) fun progress payload hMem => by
        cases List.mem_singleton.mp hMem
  | @restartWithProgress core outcome callback trace result run =>
      have hStays : Op.restartWithProgress callback ≠ .leaveStopped := by intro h; cases h
      cases run with
      | refused => exact Told.restartRefusal.mp (h.keep (.refused hStays))
      | completed =>
          exact h.restart shutdowns_progress restarts_progress hStays fun progress payload =>
            not_panicked_completed (by intro h; cases h)
      | @panicked reply before rest progress payload recovery reached user dropped =>
          obtain ⟨-, hRestart, -, -⟩ := h.of_armed (.inl rfl)
          refine .unwound ?_ (restartPanics_perform.mpr (.inr ⟨⟨callback, rfl⟩, progress, payload, ?_⟩))
          · have hOnce : (restarts ((panicked progress payload :: ⟨.releaseLease, ()⟩ :: recovery).map
                .call)).length = 1 := (records_recovery dropped).2
            rw [restarts_perform, hRestart, restarts_progress, List.nil_append, List.length_append,
              hOnce]
            rfl
          · simp
  | leaveStopped =>
      obtain ⟨hShutdown, hRestart, -, hCalm⟩ := h.of_armed (.inl rfl)
      refine .left ?_ ?_ ?_ (calm_perform hCalm (.inr fun progress payload => List.not_mem_nil))
      · rw [shutdowns_perform, hShutdown]
        rfl
      · rw [restarts_perform, hRestart]
        rfl
      · exact left_perform.mpr (.inr rfl)
  | outcome => exact h.keep (.nil (by intro h; cases h))
  | ended owned calls => exact hRelease (calls.unrecorded (by intro h; cases h))
  | completed calls => exact hRelease (calls.unrecorded (by intro h; cases h))
  | refusal => exact Told.refusal.mpr (h.keep (.nil (by intro h; cases h)))
  | restartRefusal =>
      exact Told.restartRefusal.mpr (h.keep (.nil (by intro h; cases h)))
  | dropped owned calls => exact hRelease (calls.unrecorded (by intro h; cases h))
  | abandoned owned dropped =>
      exact h.abandon owned dropped (by intro callback h; cases h)

/-- A start records nothing. -/
theorem records_new {result : Except Error RestartSession} (run : RestartSession.new.Exec trace result) :
    shutdowns (trace.map .call) = [] ∧ restarts (trace.map .call) = [] ∧
      .op .leaveStopped ∉ trace.map Entry.call ∧ ¬RestartPanics (trace.map .call) := by
  have hMakes : Makes (fun c => c = .rmStartSession ∨ ∃ raw, c = .rmEndSession raw)
      RestartSession.new := by
    refine (wp_bind _ _ _ _ _).mpr (SessionCore.wp_start (.inl rfl) ?_ ?_ ?_)
    · exact fun reply key hCode hr => trivial
    · exact fun reply hCode hr => ⟨.inr ⟨_, rfl⟩, fun code error hr => trivial⟩
    · exact fun reply error hCode hr => trivial
  have hCalls := hMakes.events run
  refine ⟨shutdowns_eq_nil ?_, restarts_eq_nil ?_, ?_, ?_⟩
  · intro event hMem
    rcases hCalls event hMem with h | ⟨raw, h⟩ <;> rw [h] <;> exact id
  · intro event hMem
    rcases hCalls event hMem with h | ⟨raw, h⟩ <;> rw [h] <;> exact id
  · simp
  · rintro ⟨first, second, callback, progress, payload, hSplit, hLast⟩
    obtain ⟨before, after, rfl, rfl, -⟩ := List.map_eq_append_iff.mp hSplit
    rw [ops_calls] at hLast
    cases hLast

/-- In every life, what the owner holds agrees with the history. -/
theorem Life.told (life : Life history value) : Told history value := by
  induction life with
  | started run =>
      obtain ⟨hShutdowns, hRestarts, hLeft, hCalm⟩ := records_new run
      exact .unshut (.inl ⟨_, rfl⟩) hShutdowns hRestarts hLeft hCalm
  | failed run =>
      obtain ⟨-, hRestarts, -, hCalm⟩ := records_new run
      exact .gone (by simp [hRestarts]) hCalm
  | perform life method run ih =>
      exact ih.perform (performed_of_exec life.fits.2 method run)

end

end RestartManager
