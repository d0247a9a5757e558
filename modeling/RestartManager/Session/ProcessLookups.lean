import Mathlib.Logic.Function.Basic
import RestartManager.Interaction.Transition
import RestartManager.Sys.ProcessQuery

/-! Any number of threads that look processes up, while processes start and
exit and their IDs are used again. -/
namespace RestartManager

open Interaction Program Transition

/-- The handle that a call uses. -/
def ProcessCall.handle? : ProcessCall → Option HANDLE
  | .getProcessTimes raw | .closeHandle raw => some raw
  | _ => none

namespace ProcessLookup

/-! ### What the threads share -/

/-- The creation time of the process that has an ID, the process that each
handle of a lookup was opened on and by which thread, and the last error of each
thread. -/
structure Kernel where
  current : UInt32
  processes : UInt32 → Option FileTime
  handles : HANDLE → Option (Nat × UInt32 × FileTime)
  lastError : Nat → UInt32

namespace Kernel

def leave (k : Kernel) (i : Nat) (code : UInt32) : Kernel :=
  { k with lastError := Function.update k.lastError i code }

/-- Any call may fail. A handle that is opened is on the process that has the
ID then, and is used for nothing else. -/
def Answers (k : Kernel) (i : Nat) : (c : ProcessCall) → c.Response → Prop
  | .getCurrentProcessId, pid => pid.val = k.current
  | .openProcess _ _ pid, opened =>
      opened.raw ≠ 0 → k.handles opened.raw = none ∧ (k.processes pid).isSome = true
  | .getLastError, code => code = k.lastError i
  | .getProcessTimes raw, times =>
      times.ok ≠ 0 → ∃ owner pid, k.handles raw = some (owner, pid, times.creation)
  | .closeHandle _, _ => True

def after (k : Kernel) (i : Nat) : (c : ProcessCall) → c.Response → Kernel
  | .openProcess _ _ pid, opened =>
      if opened.raw = 0 then k.leave i opened.lastError
      else { k.leave i opened.lastError with
        handles := Function.update k.handles opened.raw
          ((k.processes pid).map fun creation => (i, pid, creation)) }
  | .getProcessTimes _, times => k.leave i times.lastError
  | .closeHandle raw, closed =>
      if closed.ok = 0 then k.leave i closed.lastError
      else { k.leave i closed.lastError with handles := Function.update k.handles raw none }
  | _, _ => k

end Kernel

/-! ### The threads -/

inductive Query
  | fromPid (pid : UInt32)
  | current
  deriving DecidableEq, Repr

def Query.program : Query → QueryM (Except Error ProcessIdentity)
  | fromPid pid => ProcessIdentity.fromPid pid
  | current => ProcessIdentity.current

inductive Phase
  | idle
  | looking (query : Query) (rest : QueryM (Except Error ProcessIdentity))

structure State where
  kernel : Kernel
  phase : Nat → Phase

def State.setPhase (s : State) (i : Nat) (phase : Phase) : State :=
  { s with phase := Function.update s.phase i phase }

def State.setProcess (s : State) (pid : UInt32) (creation : Option FileTime) : State :=
  { s with kernel := { s.kernel with processes := Function.update s.kernel.processes pid creation } }

inductive Label
  | starts (pid : UInt32) (creation : FileTime)
  | exits (pid : UInt32)
  | lookup (i : Nat) (query : Query)
  | call (i : Nat) (event : Interaction.Event ProcessCall.Response)
  | returned (i : Nat) (query : Query) (result : Except Error ProcessIdentity)

/-- One step of a thread or of the processes. -/
inductive Step : State → Label → State → Prop
  | starts {s : State} (pid : UInt32) (creation : FileTime) (h : s.kernel.processes pid = none) :
      Step s (.starts pid creation) (s.setProcess pid (some creation))
  | exits {s : State} (pid : UInt32) : Step s (.exits pid) (s.setProcess pid none)
  | lookup {s : State} {i : Nat} (query : Query) (h : s.phase i = .idle) :
      Step s (.lookup i query) (s.setPhase i (.looking query query.program))
  | call {s : State} {i : Nat} {query : Query} {c : ProcessCall}
      {next : c.Response → QueryM (Except Error ProcessIdentity)} {response : c.Response}
      (h : s.phase i = .looking query (.call c next)) (answered : s.kernel.Answers i c response) :
      Step s (.call i ⟨c, response⟩) ({ s with kernel := s.kernel.after i c response }.setPhase i
        (.looking query (next response)))
  | returned {s : State} {i : Nat} {query : Query} {result : Except Error ProcessIdentity}
      (h : s.phase i = .looking query (.done result)) :
      Step s (.returned i query result) (s.setPhase i .idle)

/-- No lookup has begun. -/
def State.init (current : UInt32) (processes : UInt32 → Option FileTime) : State where
  kernel := { current, processes, handles := fun _ => none, lastError := fun _ => 0 }
  phase _ := .idle

/-! ### Results -/

/-- The process with the ID is the one that is looked up. -/
def Query.Asks (query : Query) (current pid : UInt32) : Prop :=
  match query with
  | .fromPid asked => pid = asked
  | .current => pid = current

/-- A process can have the ID that is asked for. -/
def Query.Valid : Query → Prop
  | .fromPid pid => pid ≠ 0 ∧ pid ≠ INVALID_NATIVE_ID
  | .current => True

/-- A query for an ID that is no sentinel is valid. -/
theorem Query.Asks.valid {query : Query} {current pid : UInt32} (asked : query.Asks current pid)
    (h : pid ≠ 0 ∧ pid ≠ INVALID_NATIVE_ID) : query.Valid := by
  cases query with
  | fromPid other =>
      obtain rfl : pid = other := asked
      exact h
  | current => trivial

/-- The step is a call of `i` that failed and left this last error. -/
def Label.Fails (i : Nat) (code : UInt32) : Label → Prop
  | .call j ⟨.openProcess .., opened⟩ =>
      j = i ∧ (opened : OpenReply).raw = 0 ∧ (opened : OpenReply).lastError = code
  | .call j ⟨.getProcessTimes _, times⟩ =>
      j = i ∧ (times : TimesReply).ok = 0 ∧ (times : TimesReply).lastError = code
  | _ => False

def Label.Calls (i : Nat) : Label → Prop
  | .call j _ => j = i
  | _ => False

/-- A state of the run, between `before` and the end of `later`, has `P`. -/
def During (start : State) (before later : List Label) (P : State → Prop) : Prop :=
  ∃ first second t, later = first ++ second ∧ Run Step start (before ++ first) t ∧ P t

/-- What a lookup of `i` makes of its calls, from the steps made since it began. -/
inductive Answered (start : State) (i : Nat) (query : Query) (before later : List Label) :
    Except Error ProcessIdentity → Prop
  /-- The error is that of the call that failed. -/
  | failed {code : UInt32} (h : ∃ l ∈ later, l.Fails i code) :
      Answered start i query before later (.error (mapSysError (.os code)))
  /-- At one moment, the process with this ID had this creation time. -/
  | found {process : ProcessIdentity} {creation : FileTime}
      (asked : query.Asks start.kernel.current process.pid)
      (time : process.creationTime100nsSince1601 = filetimeToU64 creation)
      (there : During start before later fun t => t.kernel.processes process.pid = some creation) :
      Answered start i query before later (.ok process)

/-- What a lookup returns. A sentinel is rejected without a call. -/
inductive Settled (start : State) (i : Nat) (query : Query) (before later : List Label) :
    Except Error ProcessIdentity → Prop
  | sentinel {pid : UInt32} (asked : query = .fromPid pid) (h : pid = 0 ∨ pid = INVALID_NATIVE_ID)
      (silent : ∀ l ∈ later, ¬l.Calls i) :
      Settled start i query before later (ProcessIdentity.fromRawParts pid 0)
  | answered {result : Except Error ProcessIdentity} (valid : query.Valid)
      (h : Answered start i query before later result) : Settled start i query before later result

/-- However its calls are answered, the rest of a lookup closes the handle once. -/
def ClosesOnce (raw : HANDLE) (rest : QueryM (Except Error ProcessIdentity)) : Prop :=
  ∀ trace result, rest.Exec trace result → trace.countP (fun e => e.1 = .closeHandle raw) = 1

/-- The lookup of `i` will close the handle, or Windows refused to close it. -/
def Held (history : List Label) (s : State) (raw : HANDLE) (i : Nat) : Prop :=
  (∃ query rest, s.phase i = .looking query rest ∧ ClosesOnce raw rest) ∨
    ∃ closed, .call i ⟨.closeHandle raw, closed⟩ ∈ history ∧ closed.ok = 0

/-- What holds of lookups in any run. -/
structure Sound (start : State) (history : List Label) (s : State) : Prop where
  /-- A handle is used by the thread that opened it, while it is open. -/
  used : ∀ first i event second, history = first ++ .call i event :: second →
    ∀ raw ∈ event.1.handle?, ∃ t process, Run Step start first t ∧
      t.kernel.handles raw = some (i, process)
  /-- No handle leaks. -/
  held : ∀ raw i process, s.kernel.handles raw = some (i, process) → Held history s raw i
  settled : ∀ first i query result second, history = first ++ .returned i query result :: second →
    ∃ before later, first = before ++ .lookup i query :: later ∧ (∀ query', .lookup i query' ∉ later) ∧
      Settled start i query (before ++ [.lookup i query]) later result

/-! ### The program of a lookup -/

/-- What the crate makes of the answer for a valid ID. -/
def identified {pid : UInt32} (h : pid ≠ 0 ∧ pid ≠ INVALID_NATIVE_ID)
    (result : SysResult { process : RawUniqueProcess // process.pid = pid }) :
    Except Error ProcessIdentity :=
  (result.map fun process => ⟨pid, process.val.startTime, h.1, h.2⟩).mapError mapSysError

/-- The lookup of a valid ID, up to its first call. -/
def opening {pid : UInt32} (h : pid ≠ 0 ∧ pid ≠ INVALID_NATIVE_ID) :
    QueryM (Except Error ProcessIdentity) :=
  identified h <$> processFromPid pid

/-- The identity keeps the ID and the start time of the raw process. -/
theorem processFromRaw_eq {pid : UInt32} {process : RawUniqueProcess} (hPid : process.pid = pid)
    (h₀ : process.pid ≠ 0) (h₁ : process.pid ≠ INVALID_NATIVE_ID) :
    processFromRaw process h₀ h₁ = ⟨pid, process.startTime, hPid ▸ h₀, hPid ▸ h₁⟩ := by
  subst hPid
  rfl

/-- A sentinel ID is refused without a call. -/
theorem fromPid_sentinel {pid : UInt32} (h : pid = 0 ∨ pid = INVALID_NATIVE_ID) :
    ProcessIdentity.fromPid pid = .done (ProcessIdentity.fromRawParts pid 0) := dif_pos h

/-- Any other ID is opened. -/
theorem fromPid_eq {pid : UInt32} (h : pid ≠ 0 ∧ pid ≠ INVALID_NATIVE_ID) :
    ProcessIdentity.fromPid pid = opening h := by
  have hValid : ¬(pid = 0 ∨ pid = INVALID_NATIVE_ID) := not_or.mpr h
  rw [ProcessIdentity.fromPid, dif_neg hValid, opening, map_eq_pure_bind]
  congr 1
  funext result
  rcases result with error | ⟨process, rfl⟩ <;> rfl

/-- The current process is asked for its ID, and that is opened. -/
theorem current_eq : ProcessIdentity.current =
    .call .getCurrentProcessId fun pid => opening pid.property := by
  unfold ProcessIdentity.current currentProcess
  rw [bind_assoc, request_bind]
  congr 1
  funext pid
  rw [bind_assoc, opening, map_eq_pure_bind]
  congr 1
  funext result
  rcases result with error | ⟨process, hPid⟩
  · rfl
  · change Program.done _ = Program.done _
    congr 1
    exact congrArg Except.ok (processFromRaw_eq hPid _ _)

/-- The end of a lookup that opened a handle. -/
def closing (raw : HANDLE) (result : Except Error ProcessIdentity) : QueryM (Except Error ProcessIdentity) :=
  .call (.closeHandle raw) fun _ => .done result

def timing {pid : UInt32} (h : pid ≠ 0 ∧ pid ≠ INVALID_NATIVE_ID) (raw : HANDLE) :
    QueryM (Except Error ProcessIdentity) :=
  .call (.getProcessTimes raw) fun times =>
    if times.ok = 0 then .call .getLastError fun code => closing raw (.error (mapSysError (.os code)))
    else closing raw (.ok ⟨pid, filetimeToU64 times.creation, h.1, h.2⟩)

/-- A process that does not open leaves the code in the error of the thread. -/
theorem opening_eq {pid : UInt32} (h : pid ≠ 0 ∧ pid ≠ INVALID_NATIVE_ID) : opening h =
    .call (.openProcess PROCESS_QUERY_LIMITED_INFORMATION 0 pid) fun opened =>
      if opened.raw = 0 then .call .getLastError fun code => .done (.error (mapSysError (.os code)))
      else timing h opened.raw := by
  unfold opening processFromPid
  rw [request_bind, map_eq_pure_bind, call_bind]
  congr 1
  funext opened
  split_ifs
  · rfl
  · rw [request_bind, call_bind]
    unfold timing
    congr 1
    funext times
    split_ifs <;> rfl

/-! ### Closing -/

section

variable {raw : HANDLE} {rest : QueryM (Except Error ProcessIdentity)}

/-- A call other than the close leaves the close to be made. -/
theorem ClosesOnce.next {c : ProcessCall} {next : c.Response → QueryM (Except Error ProcessIdentity)}
    (h : ClosesOnce raw (.call c next)) (hCall : c ≠ .closeHandle raw) (response : c.Response) :
    ClosesOnce raw (next response) := by
  intro trace result run
  have hRun : (Program.call c next).Exec (⟨c, response⟩ :: trace) result := .step run
  have hCount := h _ _ hRun
  rwa [List.countP_cons_of_neg (by simpa using hCall)] at hCount

/-- A lookup that returned has nothing left to close. -/
theorem not_closesOnce_done {result : Except Error ProcessIdentity} : ¬ClosesOnce raw (.done result) := by
  intro h
  have hCount := h [] result (.refl _)
  cases hCount

/-- The guard closes its handle on each way out. -/
theorem closing_closesOnce (result : Except Error ProcessIdentity) :
    ClosesOnce raw (closing raw result) := by
  intro trace final run
  obtain ⟨closed, rest, rfl, last⟩ := exec_call_iff.mp run
  obtain ⟨rfl, -⟩ := exec_done_iff.mp last
  exact List.countP_cons_of_pos (decide_eq_true rfl)

/-- Whatever the times are answered, the handle is closed. -/
theorem timing_closesOnce {pid : UInt32} (h : pid ≠ 0 ∧ pid ≠ INVALID_NATIVE_ID) :
    ClosesOnce raw (timing h raw) := by
  have hOther {c : ProcessCall} (hc : c ≠ .closeHandle raw) (response : c.Response)
      (rest : Interaction.Trace ProcessCall.Response) :
      (⟨c, response⟩ :: rest).countP (fun e => e.1 = .closeHandle raw) =
        rest.countP fun e => e.1 = .closeHandle raw :=
    List.countP_cons_of_neg (by simpa using hc)
  intro trace final run
  obtain ⟨times, rest, rfl, answered⟩ := exec_call_iff.mp run
  rw [hOther (by simp)]
  split_ifs at answered
  · obtain ⟨code, later, rfl, last⟩ := exec_call_iff.mp answered
    rw [hOther (by simp)]
    exact closing_closesOnce _ _ _ last
  · exact closing_closesOnce _ _ _ answered

end

/-! ### Where a lookup is -/

section

variable {start s t : State} {i j : Nat} {query : Query} {before later : List Label} {l : Label}

/-- What held at some time during the lookup still did so later. -/
theorem During.snoc {P : State → Prop} (h : During start before later P) (more : List Label) :
    During start before (later ++ more) P := by
  obtain ⟨first, second, t, rfl, run, hP⟩ := h
  exact ⟨first, second ++ more, t, List.append_assoc _ _ _, run, hP⟩

/-- A failure stays in the history. -/
theorem fails_snoc {code : UInt32} (h : ∃ l ∈ later, l.Fails i code) (l : Label) :
    ∃ l' ∈ later ++ [l], l'.Fails i code := by
  obtain ⟨l', hMem, hFails⟩ := h
  exact ⟨l', List.mem_append_left _ hMem, hFails⟩

/-- A failure that was just made is in the history. -/
theorem fails_last {code : UInt32} (h : l.Fails i code) : ∃ l' ∈ later ++ [l], l'.Fails i code :=
  ⟨l, List.mem_append_right _ (List.mem_singleton_self l), h⟩

/-- An answer stays justified as the history grows. -/
theorem Answered.snoc {result : Except Error ProcessIdentity} (h : Answered start i query before later result)
    (l : Label) : Answered start i query before (later ++ [l]) result := by
  cases h with
  | failed h => exact .failed (fails_snoc h l)
  | found asked time there => exact .found asked time (there.snoc _)

/-- A lookup that settled stays so while its thread makes no call. -/
theorem Settled.snoc {result : Except Error ProcessIdentity} (h : Settled start i query before later result)
    (hOther : ¬l.Calls i) : Settled start i query before (later ++ [l]) result := by
  cases h with
  | sentinel asked h silent =>
      refine .sentinel asked h fun l' hMem => ?_
      rcases List.mem_append.mp hMem with hMem | hMem
      · exact silent l' hMem
      · exact List.mem_singleton.mp hMem ▸ hOther
  | answered valid h => exact .answered valid (h.snoc l)

/-- The point that a lookup has come to, with what is known of its handle and
of the last error of its thread. -/
inductive Point (start : State) (i : Nat) (query : Query) (before later : List Label) (k : Kernel) :
    QueryM (Except Error ProcessIdentity) → Prop
  | current (asked : query = .current) : Point start i query before later k ProcessIdentity.current
  | opening {pid : UInt32} (h : pid ≠ 0 ∧ pid ≠ INVALID_NATIVE_ID)
      (asked : query.Asks start.kernel.current pid) : Point start i query before later k (opening h)
  | unopened {code : UInt32} (valid : query.Valid) (failed : ∃ l ∈ later, l.Fails i code)
      (last : k.lastError i = code) : Point start i query before later k
        (.call .getLastError fun code => .done (.error (mapSysError (.os code))))
  | timing {pid : UInt32} {raw : HANDLE} {creation : FileTime}
      (h : pid ≠ 0 ∧ pid ≠ INVALID_NATIVE_ID) (asked : query.Asks start.kernel.current pid)
      (opened : k.handles raw = some (i, pid, creation))
      (there : During start before later fun t => t.kernel.processes pid = some creation) :
      Point start i query before later k (timing h raw)
  | untimed {raw : HANDLE} {process : UInt32 × FileTime} {code : UInt32} (valid : query.Valid)
      (opened : k.handles raw = some (i, process)) (failed : ∃ l ∈ later, l.Fails i code)
      (last : k.lastError i = code) : Point start i query before later k
        (.call .getLastError fun code => closing raw (.error (mapSysError (.os code))))
  | closing {raw : HANDLE} {process : UInt32 × FileTime} {result : Except Error ProcessIdentity}
      (valid : query.Valid) (opened : k.handles raw = some (i, process))
      (answered : Answered start i query before later result) :
      Point start i query before later k (closing raw result)
  | done {result : Except Error ProcessIdentity} (settled : Settled start i query before later result) :
      Point start i query before later k (.done result)

variable {k k' : Kernel} {rest : QueryM (Except Error ProcessIdentity)}

/-- The steps of others leave a lookup where it is. -/
theorem Point.frame (h : Point start i query before later k rest) (hOther : ¬l.Calls i)
    (hHandles : ∀ raw process, k.handles raw = some (i, process) → k'.handles raw = some (i, process))
    (hLast : k'.lastError i = k.lastError i) : Point start i query before (later ++ [l]) k' rest := by
  cases h with
  | current asked => exact .current asked
  | opening h asked => exact .opening h asked
  | unopened valid failed last => exact .unopened valid (fails_snoc failed l) (hLast.trans last)
  | timing h asked opened there => exact .timing h asked (hHandles _ _ opened) (there.snoc _)
  | untimed valid opened failed last =>
      exact .untimed valid (hHandles _ _ opened) (fails_snoc failed l) (hLast.trans last)
  | closing valid opened answered => exact .closing valid (hHandles _ _ opened) (answered.snoc l)
  | done settled => exact .done (settled.snoc hOther)

/-- A handle is used only where it is known to be open. -/
theorem Point.used {c : ProcessCall} {next : c.Response → QueryM (Except Error ProcessIdentity)}
    (h : Point start i query before later k (.call c next)) :
    ∀ raw ∈ c.handle?, ∃ process, k.handles raw = some (i, process) := by
  generalize hRest : Program.call c next = rest at h
  cases h with
  | current asked =>
      rw [current_eq] at hRest
      cases hRest
      exact nofun
  | opening h asked =>
      rw [opening_eq] at hRest
      cases hRest
      exact nofun
  | unopened valid failed last =>
      cases hRest
      exact nofun
  | timing h asked opened there =>
      cases hRest
      rintro _ ⟨⟩
      exact ⟨_, opened⟩
  | untimed valid opened failed last =>
      cases hRest
      exact nofun
  | closing valid opened settled =>
      cases hRest
      rintro _ ⟨⟩
      exact ⟨_, opened⟩
  | done settled => cases hRest

/-- A call takes a lookup to its next point. -/
theorem Point.call {c : ProcessCall} {next : c.Response → QueryM (Except Error ProcessIdentity)}
    {response : c.Response} (h : Point start i query before later s.kernel (.call c next))
    (run : Run Step start (before ++ later) s) (hCurrent : s.kernel.current = start.kernel.current)
    (answered : s.kernel.Answers i c response) :
    Point start i query before (later ++ [.call i ⟨c, response⟩]) (s.kernel.after i c response)
      (next response) := by
  generalize hRest : Program.call c next = rest at h
  cases h with
  | current asked =>
      rw [current_eq] at hRest
      cases hRest
      subst asked
      exact .opening _ (answered.trans hCurrent)
  | @opening pid h asked =>
      rw [opening_eq] at hRest
      cases hRest
      by_cases hNull : response.raw = 0
      · simp only [hNull, if_true, Kernel.after]
        exact .unopened (asked.valid h) (fails_last ⟨rfl, hNull, rfl⟩) (Function.update_self _ _ _)
      · simp only [hNull, if_false, Kernel.after]
        obtain ⟨-, hSome⟩ := answered hNull
        obtain ⟨creation, hCreation⟩ := Option.isSome_iff_exists.mp hSome
        refine .timing h asked ?_ ⟨later, _, s, rfl, run, hCreation⟩
        simp only [Function.update_self, hCreation, Option.map_some]
  | unopened valid failed last =>
      cases hRest
      obtain rfl := answered.trans last
      exact .done (.answered valid (.failed (fails_snoc failed _)))
  | timing h asked opened there =>
      cases hRest
      by_cases hOk : response.ok = 0
      · simp only [hOk, if_true, Kernel.after]
        exact .untimed (asked.valid h) opened (fails_last ⟨rfl, hOk, rfl⟩) (Function.update_self _ _ _)
      · simp only [hOk, if_false, Kernel.after]
        obtain ⟨owner, pid', hTimed⟩ := answered hOk
        cases opened.symm.trans hTimed
        exact .closing (asked.valid h) opened (.found asked rfl (there.snoc _))
  | untimed valid opened failed last =>
      cases hRest
      obtain rfl := answered.trans last
      exact .closing valid opened (.failed (fails_snoc failed _))
  | closing valid opened settled =>
      cases hRest
      exact .done (.answered valid (settled.snoc _))
  | done settled => cases hRest

/-- A lookup that opens a handle closes it. -/
theorem Point.opens {access inherit pid : UInt32} {opened : OpenReply}
    {next : (ProcessCall.openProcess access inherit pid).Response → QueryM (Except Error ProcessIdentity)}
    (h : Point start i query before later k (.call (.openProcess access inherit pid) next))
    (hRaw : opened.raw ≠ 0) : ClosesOnce opened.raw (next opened) := by
  generalize hRest : Program.call (ProcessCall.openProcess access inherit pid) next = rest at h
  cases h with
  | current asked =>
      rw [current_eq] at hRest
      cases hRest
  | opening h asked =>
      rw [opening_eq] at hRest
      cases hRest
      dsimp only
      rw [if_neg hRaw]
      exact timing_closesOnce h
  | unopened valid failed last => cases hRest
  | timing h asked opened there => cases hRest
  | untimed valid opened failed last => cases hRest
  | closing valid opened answered => cases hRest
  | done settled => cases hRest

/-! ### Runs -/

variable {c : ProcessCall} {response : c.Response} {raw : HANDLE} {process : UInt32 × FileTime}

/-- No call changes the ID of the process. -/
theorem Kernel.after_current : (k.after j c response).current = k.current := by
  cases c with
  | openProcess => simp only [Kernel.after]; split <;> rfl
  | closeHandle => simp only [Kernel.after]; split <;> rfl
  | _ => rfl

/-- The last error is that of a thread. -/
theorem Kernel.after_lastError (h : i ≠ j) : (k.after j c response).lastError i = k.lastError i := by
  have hLeave (code : UInt32) : (k.leave j code).lastError i = k.lastError i := Function.update_of_ne h _ _
  cases c with
  | openProcess => simp only [Kernel.after]; split <;> exact hLeave _
  | closeHandle => simp only [Kernel.after]; split <;> exact hLeave _
  | getProcessTimes => exact hLeave _
  | _ => rfl

/-- A thread that uses its own handles leaves those of others open. -/
theorem Kernel.after_handles_of (h : i ≠ j)
    (hUsed : ∀ raw ∈ c.handle?, ∃ process, k.handles raw = some (j, process))
    (hAnswers : k.Answers j c response) (hOpen : k.handles raw = some (i, process)) :
    (k.after j c response).handles raw = some (i, process) := by
  cases c with
  | openProcess access inherit pid =>
      simp only [Kernel.after]
      split
      · exact hOpen
      · next hRaw =>
          have hFresh : raw ≠ response.raw := by
            rintro rfl
            cases hOpen.symm.trans (hAnswers hRaw).1
          exact (Function.update_of_ne hFresh _ _).trans hOpen
  | closeHandle raw' =>
      simp only [Kernel.after]
      split
      · exact hOpen
      · have hOther : raw ≠ raw' := by
          rintro rfl
          obtain ⟨process', hOwn⟩ := hUsed raw rfl
          cases hOpen.symm.trans hOwn
          exact h rfl
        exact (Function.update_of_ne hOther _ _).trans hOpen
  | _ => exact hOpen

/-- A handle that is open was open before, or has just been opened. -/
theorem Kernel.handles_of_after (h : (k.after j c response).handles raw = some (i, process)) :
    (k.handles raw = some (i, process) ∧ ∀ closed, (⟨c, response⟩ : Interaction.Event ProcessCall.Response) =
        ⟨.closeHandle raw, closed⟩ → closed.ok = 0) ∨
      i = j ∧ ∃ access inherit pid opened, (⟨c, response⟩ : Interaction.Event ProcessCall.Response) =
        ⟨.openProcess access inherit pid, opened⟩ ∧ opened.raw ≠ 0 ∧ raw = opened.raw := by
  cases c with
  | openProcess access inherit pid =>
      simp only [Kernel.after] at h
      split at h
      · exact .inl ⟨h, nofun⟩
      · next hRaw =>
          by_cases hSame : raw = response.raw
          · subst hSame
            have hOpened := (Function.update_self _ _ _).symm.trans h
            obtain ⟨creation, -, hProcess⟩ := Option.map_eq_some_iff.mp hOpened
            cases hProcess
            exact .inr ⟨rfl, access, inherit, pid, response, rfl, hRaw, rfl⟩
          · exact .inl ⟨(Function.update_of_ne hSame _ _).symm.trans h, nofun⟩
  | closeHandle raw' =>
      simp only [Kernel.after] at h
      split at h
      · next hRefused =>
          refine .inl ⟨h, ?_⟩
          rintro _ ⟨⟩
          exact hRefused
      · have hOther : raw ≠ raw' := by
          rintro rfl
          cases (Function.update_self _ _ _).symm.trans h
        refine .inl ⟨(Function.update_of_ne hOther _ _).symm.trans h, ?_⟩
        rintro _ ⟨⟩
        exact absurd rfl hOther
  | getCurrentProcessId => exact .inl ⟨h, nofun⟩
  | getLastError => exact .inl ⟨h, nofun⟩
  | getProcessTimes raw' => exact .inl ⟨h, nofun⟩

end

/-- The lookup of `i` that is under way, with where it began. -/
def Looks (start : State) (history : List Label) (k : Kernel) (i : Nat) (query : Query)
    (rest : QueryM (Except Error ProcessIdentity)) : Prop :=
  ∃ before later, history = before ++ .lookup i query :: later ∧ (∀ query', .lookup i query' ∉ later) ∧
    Point start i query (before ++ [.lookup i query]) later k rest

structure Inv (start : State) (history : List Label) (s : State) : Prop where
  run : Run Step start history s
  current : s.kernel.current = start.kernel.current
  looks : ∀ i query rest, s.phase i = .looking query rest → Looks start history s.kernel i query rest
  held : ∀ raw i process, s.kernel.handles raw = some (i, process) → Held history s raw i

section

variable {start s t : State} {history : List Label} {i j : Nat} {query : Query} {l : Label}
  {k k' : Kernel} {rest : QueryM (Except Error ProcessIdentity)} {raw : HANDLE}
  {process : UInt32 × FileTime}

/-- The calls of other threads leave a lookup where it was. -/
theorem Looks.frame (h : Looks start history k i query rest) (hCalls : ¬l.Calls i)
    (hLookup : ∀ query', l ≠ .lookup i query')
    (hHandles : ∀ raw process, k.handles raw = some (i, process) → k'.handles raw = some (i, process))
    (hLast : k'.lastError i = k.lastError i) : Looks start (history ++ [l]) k' i query rest := by
  obtain ⟨before, later, rfl, hNone, hPoint⟩ := h
  refine ⟨before, later ++ [l], by simp, fun query' hMem => ?_, hPoint.frame hCalls hHandles hLast⟩
  rcases List.mem_append.mp hMem with hMem | hMem
  · exact hNone query' hMem
  · exact hLookup query' (List.mem_singleton.mp hMem).symm

/-- A lookup begins with its whole program to run. -/
theorem looks_lookup (query : Query) : Looks start (history ++ [.lookup i query]) k i query query.program := by
  refine ⟨history, [], rfl, fun _ => List.not_mem_nil, ?_⟩
  cases query with
  | current => exact .current rfl
  | fromPid pid =>
      by_cases h : pid = 0 ∨ pid = INVALID_NATIVE_ID
      · change Point _ _ _ _ _ _ (ProcessIdentity.fromPid pid)
        rw [fromPid_sentinel h]
        exact .done (.sentinel rfl h fun _ hMem => absurd hMem List.not_mem_nil)
      · change Point _ _ _ _ _ _ (ProcessIdentity.fromPid pid)
        rw [fromPid_eq (not_or.mp h)]
        exact .opening _ rfl

/-- The handle that a lookup uses is its own. -/
theorem Looks.used {c : ProcessCall} {next : c.Response → QueryM (Except Error ProcessIdentity)}
    (h : Looks start history k i query (.call c next)) :
    ∀ raw ∈ c.handle?, ∃ process, k.handles raw = some (i, process) := by
  obtain ⟨before, later, -, -, hPoint⟩ := h
  exact hPoint.used

/-- One native call of a lookup: one case for each place in its program. -/
theorem Looks.call {c : ProcessCall} {next : c.Response → QueryM (Except Error ProcessIdentity)}
    {response : c.Response} (h : Looks start history s.kernel i query (.call c next))
    (run : Run Step start history s) (hCurrent : s.kernel.current = start.kernel.current)
    (answered : s.kernel.Answers i c response) :
    Looks start (history ++ [.call i ⟨c, response⟩]) (s.kernel.after i c response) i query
      (next response) := by
  obtain ⟨before, later, rfl, hNone, hPoint⟩ := h
  refine ⟨before, later ++ [.call i ⟨c, response⟩], by simp, fun query' hMem => ?_,
    hPoint.call (by simpa using run) hCurrent answered⟩
  rcases List.mem_append.mp hMem with hMem | hMem
  · exact hNone query' hMem
  · cases List.mem_singleton.mp hMem

/-- Who holds a handle is not changed by a step of another thread. -/
theorem Held.snoc (h : Held history s raw i) (hPhase : t.phase i = s.phase i) (l : Label) :
    Held (history ++ [l]) t raw i := by
  rcases h with ⟨query, rest, hLooking, hCloses⟩ | ⟨closed, hMem, hOk⟩
  · exact .inl ⟨query, rest, hPhase.trans hLooking, hCloses⟩
  · exact .inr ⟨closed, List.mem_append_left _ hMem, hOk⟩

/-- What is held by a thread that is not about to close it, was not closed. -/
theorem Held.refused (h : Held history s raw i)
    (hPhase : ∀ query rest, s.phase i = .looking query rest → ¬ClosesOnce raw rest) (l : Label) :
    Held (history ++ [l]) t raw i := by
  rcases h with ⟨query, rest, hLooking, hCloses⟩ | ⟨closed, hMem, hOk⟩
  · exact absurd hCloses (hPhase query rest hLooking)
  · exact .inr ⟨closed, List.mem_append_left _ hMem, hOk⟩

/-! ### Runs -/

theorem State.phase_setPhase (h : i ≠ j) (phase : Phase) : (s.setPhase j phase).phase i = s.phase i :=
  Function.update_of_ne h _ _

/-- The processes come and go without the threads. -/
theorem Inv.setProcess (h : Inv start history s) {pid : UInt32} {creation : Option FileTime}
    (hCalls : ∀ i, ¬l.Calls i) (hLookup : ∀ i query, l ≠ .lookup i query)
    (step : Step s l (s.setProcess pid creation)) : Inv start (history ++ [l]) (s.setProcess pid creation) where
  run := h.run.snoc step
  current := h.current
  looks i query rest hPhase :=
    (h.looks i query rest hPhase).frame (hCalls i) (hLookup i) (fun _ _ hOpen => hOpen) rfl
  held raw i process hOpen := (h.held raw i process hOpen).snoc rfl l

/-- A thread begins a lookup. -/
theorem Inv.lookup (h : Inv start history s) (hIdle : s.phase j = .idle) (query : Query) :
    Inv start (history ++ [.lookup j query]) (s.setPhase j (.looking query query.program)) where
  run := h.run.snoc (.lookup query hIdle)
  current := h.current
  looks i query' rest hPhase := by
    by_cases hi : i = j
    · subst hi
      cases (Function.update_self _ _ _).symm.trans hPhase
      exact looks_lookup query
    · rw [State.phase_setPhase hi] at hPhase
      refine (h.looks i query' rest hPhase).frame nofun ?_ (fun _ _ hOpen => hOpen) rfl
      rintro _ ⟨⟩
      exact hi rfl
  held raw i process hOpen := by
    by_cases hi : i = j
    · subst hi
      exact (h.held raw i process hOpen).refused (fun _ _ hPhase => nomatch hIdle.symm.trans hPhase) _
    · exact (h.held raw i process hOpen).snoc (State.phase_setPhase hi _) _

/-- A lookup returns. -/
theorem Inv.returned (h : Inv start history s) {result : Except Error ProcessIdentity}
    (hDone : s.phase j = .looking query (.done result)) :
    Inv start (history ++ [.returned j query result]) (s.setPhase j .idle) where
  run := h.run.snoc (.returned hDone)
  current := h.current
  looks i query' rest hPhase := by
    by_cases hi : i = j
    · subst hi
      cases (Function.update_self _ _ _).symm.trans hPhase
    · rw [State.phase_setPhase hi] at hPhase
      exact (h.looks i query' rest hPhase).frame nofun nofun (fun _ _ hOpen => hOpen) rfl
  held raw i process hOpen := by
    by_cases hi : i = j
    · subst hi
      refine (h.held raw i process hOpen).refused ?_ _
      intro query' rest hPhase
      cases hDone.symm.trans hPhase
      exact not_closesOnce_done
    · exact (h.held raw i process hOpen).snoc (State.phase_setPhase hi _) _

/-- A lookup makes a call, and the table of handles follows. -/
theorem Inv.call (h : Inv start history s) {c : ProcessCall}
    {next : c.Response → QueryM (Except Error ProcessIdentity)} {response : c.Response}
    (hCall : s.phase j = .looking query (.call c next)) (answered : s.kernel.Answers j c response) :
    Inv start (history ++ [.call j ⟨c, response⟩])
      ({ s with kernel := s.kernel.after j c response }.setPhase j (.looking query (next response))) where
  run := h.run.snoc (.call hCall answered)
  current := Kernel.after_current.trans h.current
  looks i query' rest hPhase := by
    have hLooks := h.looks j query _ hCall
    by_cases hi : i = j
    · subst hi
      cases (Function.update_self _ _ _).symm.trans hPhase
      exact hLooks.call h.run h.current answered
    · rw [State.phase_setPhase hi] at hPhase
      refine (h.looks i query' rest hPhase).frame (Ne.symm hi) nofun ?_ (Kernel.after_lastError hi)
      intro raw process hOpen
      exact Kernel.after_handles_of hi hLooks.used answered hOpen
  held raw i process hOpen := by
    have hNext : State.phase ({ s with kernel := s.kernel.after j c response }.setPhase j
        (.looking query (next response))) j = .looking query (next response) := Function.update_self _ _ _
    rcases Kernel.handles_of_after hOpen with ⟨hBefore, hClosed⟩ | ⟨rfl, access, inherit, pid, opened,
      hEvent, hRaw, rfl⟩
    · have hHeld := h.held raw i process hBefore
      by_cases hi : i = j
      · subst hi
        rcases hHeld with ⟨query', rest, hLooking, hCloses⟩ | ⟨closed, hMem, hOk⟩
        · cases hCall.symm.trans hLooking
          by_cases hClose : c = .closeHandle raw
          · subst hClose
            exact .inr ⟨response, List.mem_append_right _ (List.mem_singleton_self _), hClosed response rfl⟩
          · exact .inl ⟨query, next response, hNext, hCloses.next hClose response⟩
        · exact .inr ⟨closed, List.mem_append_left _ hMem, hOk⟩
      · exact hHeld.snoc (State.phase_setPhase hi _) _
    · cases hEvent
      obtain ⟨before, later, -, -, hPoint⟩ := h.looks i query _ hCall
      exact .inl ⟨query, next opened, hNext, hPoint.opens hRaw⟩

/-- By induction on the run. -/
theorem inv_of_run {current : UInt32} {processes : UInt32 → Option FileTime}
    (run : Run Step (.init current processes) history s) : Inv (.init current processes) history s := by
  apply run.invariant
  · exact ⟨.refl, rfl, fun _ _ _ h => (nomatch h), fun _ _ _ h => (nomatch h)⟩
  · intro history s l t h step
    have step' := step
    cases step with
    | starts pid creation hFree => exact h.setProcess (fun _ => nofun) (fun _ _ => nofun) step'
    | exits pid => exact h.setProcess (fun _ => nofun) (fun _ _ => nofun) step'
    | lookup query hIdle => exact h.lookup hIdle query
    | call hCall answered => exact h.call hCall answered
    | returned hDone => exact h.returned hDone

end

end ProcessLookup

/-- In any run of any number of threads, each handle is used by the thread that
opened it alone and closed once, and what a lookup returns names one process, or
is the error of its own call, even where IDs are used again meanwhile. -/
theorem process_lookups {current : UInt32} {processes : UInt32 → Option FileTime}
    {history : List ProcessLookup.Label} {s : ProcessLookup.State}
    (run : Run ProcessLookup.Step (.init current processes) history s) :
    ProcessLookup.Sound (.init current processes) history s where
  used := by
    rintro first i ⟨c, response⟩ second rfl raw hRaw
    obtain ⟨t, t', before, step, -⟩ := run.split
    cases step with
    | call hCall answered =>
        obtain ⟨process, hOpen⟩ := ((ProcessLookup.inv_of_run before).looks _ _ _ hCall).used raw hRaw
        exact ⟨t, process, before, hOpen⟩
  held := (ProcessLookup.inv_of_run run).held
  settled := by
    rintro first i query result second rfl
    obtain ⟨t, t', before, step, -⟩ := run.split
    cases step with
    | returned hDone =>
        obtain ⟨before', later, hFirst, hNone, hPoint⟩ := (ProcessLookup.inv_of_run before).looks _ _ _ hDone
        refine ⟨before', later, hFirst, hNone, ?_⟩
        generalize hRest : Program.done result = rest at hPoint
        cases hPoint with
        | done settled =>
            cases hRest
            exact settled
        | current asked =>
            rw [ProcessLookup.current_eq] at hRest
            cases hRest
        | opening h asked =>
            rw [ProcessLookup.opening_eq] at hRest
            cases hRest
        | unopened valid failed last => cases hRest
        | timing h asked opened there => cases hRest
        | untimed valid opened failed last => cases hRest
        | closing valid opened made => cases hRest

/-- The process exits and its ID is used again while its times are read. -/
theorem process_lookups_reused : ∃ before later, ProcessLookup.Settled
    (.init 1 fun pid => if pid = 7 then some ⟨5, 0⟩ else none) 0 (.fromPid 7) before later
      (.ok ⟨7, 5, by decide, by decide⟩) := by
  let start : ProcessLookup.State := .init 1 fun pid => if pid = 7 then some ⟨5, 0⟩ else none
  let opens : ProcessLookup.Label := .call 0 ⟨.openProcess PROCESS_QUERY_LIMITED_INFORMATION 0 7, ⟨64, 0⟩⟩
  let times : ProcessLookup.Label := .call 0 ⟨.getProcessTimes 64, ⟨1, ⟨5, 0⟩, 0⟩⟩
  let closes : ProcessLookup.Label := .call 0 ⟨.closeHandle 64, ⟨1, 0⟩⟩
  have run : ∃ s, Run ProcessLookup.Step start [.lookup 0 (.fromPid 7), opens, .exits 7, .starts 7 ⟨9, 0⟩,
      times, closes, .returned 0 (.fromPid 7) (.ok ⟨7, 5, by decide, by decide⟩)] s :=
    ⟨_, .cons (.lookup _ rfl) <| .cons (.call rfl fun _ => ⟨rfl, rfl⟩) <| .cons (.exits 7) <|
      .cons (.starts 7 _ rfl) <| .cons (.call rfl fun _ => ⟨0, 7, rfl⟩) <| .cons (.call rfl trivial) <|
      .cons (.returned rfl) .refl⟩
  obtain ⟨s, run⟩ := run
  obtain ⟨before, later, -, -, settled⟩ := (process_lookups run).settled
    [.lookup 0 (.fromPid 7), opens, .exits 7, .starts 7 ⟨9, 0⟩, times, closes] 0 _ _ [] rfl
  exact ⟨_, _, settled⟩

end RestartManager
