import RestartManager.Interaction.Resampling
import RestartManager.Session.Core

/-! What a report of affected applications contains while they come and go. -/
namespace RestartManager

open Interaction Resampling

/-- The text of a fixed-width field: the units before the first NUL. -/
def fieldText (field : List UInt16) : OsString := ⟨field.takeWhile (· ≠ 0)⟩

/-- An entry of a report says what the native entry says. -/
structure AffectedApplication.Reports (entry : RmProcessInfo) (application : AffectedApplication) :
    Prop where
  displayName : application.displayName = fieldText entry.strAppName.toList
  serviceName : application.serviceName =
    if (fieldText entry.strServiceShortName.toList).units = [] then none
    else some (fieldText entry.strServiceShortName.toList)
  applicationType : application.applicationType.rawValue = entry.applicationType
  status : application.status.bits = entry.appStatus
  restartable : application.restartable = true ↔ entry.bRestartable ≠ 0
  process : match application.process with
    | some process => process.pid = entry.process.dwProcessId ∧
        u64ToFiletime process.creationTime100nsSince1601 = entry.process.processStartTime
    | none => entry.process.dwProcessId = 0 ∨ entry.process.dwProcessId = INVALID_NATIVE_ID
  terminalSessionId : application.terminalSessionId =
    if entry.tsSessionId = INVALID_NATIVE_ID then none else some entry.tsSessionId

/-- Both names of an entry have a terminator. -/
def RmProcessInfo.Terminated (entry : RmProcessInfo) : Prop :=
  0 ∈ entry.strAppName.toList ∧ 0 ∈ entry.strServiceShortName.toList

/-- The entry with its names decoded. -/
def RmProcessInfo.decoded (entry : RmProcessInfo) : RawApplication where
  displayName := fieldText entry.strAppName.toList
  serviceName := fieldText entry.strServiceShortName.toList
  applicationType := entry.applicationType
  status := entry.appStatus
  restartable := entry.bRestartable ≠ 0
  process := rawUniqueProcess entry.process
  terminalSessionId := entry.tsSessionId

theorem rawApplication_eq {entry : RmProcessInfo} (h : entry.Terminated) :
    rawApplication entry = .ok entry.decoded := by
  simp only [rawApplication, decodeFixed_eq h.1, decodeFixed_eq h.2, bind, Except.bind, pure,
    Except.pure]
  rfl

/-- A process is absent exactly for the two sentinels. -/
theorem affectedApplication_process (raw : RawApplication) :
    match (affectedApplication raw).process with
    | some process => process.pid = raw.process.pid ∧
        process.creationTime100nsSince1601 = raw.process.startTime
    | none => raw.process.pid = 0 ∨ raw.process.pid = INVALID_NATIVE_ID := by
  unfold affectedApplication
  by_cases h : raw.process.pid ≠ 0 ∧ raw.process.pid ≠ INVALID_NATIVE_ID
  · rw [dif_pos h]
    exact ⟨rfl, rfl⟩
  · rw [dif_neg h]
    exact or_iff_not_and_not.mpr h

theorem rawApplication_reports {entry : RmProcessInfo} (h : entry.Terminated) :
    ∃ raw, rawApplication entry = .ok raw ∧ (affectedApplication raw).Reports entry := by
  refine ⟨entry.decoded, rawApplication_eq h, ?_⟩
  constructor
  case displayName => rfl
  case serviceName =>
    simp only [affectedApplication, OsString.isEmpty_iff]
    rfl
  case applicationType => exact ApplicationType.rawValue_fromRaw _
  case status => rfl
  case restartable => exact decide_eq_true_iff
  case process =>
    have hProcess := affectedApplication_process entry.decoded
    cases hSome : (affectedApplication entry.decoded).process with
    | none =>
        rw [hSome] at hProcess
        exact hProcess
    | some process =>
        rw [hSome] at hProcess
        exact ⟨hProcess.1, by rw [hProcess.2]; exact u64ToFiletime_filetimeToU64 _⟩
  case terminalSessionId =>
    simp only [affectedApplication, ite_not]
    rfl

/-- Entries that can be decoded are all reported, in their order. -/
theorem mapM_rawApplication {entries : List RmProcessInfo} (h : ∀ entry ∈ entries, entry.Terminated) :
    ∃ raws, entries.mapM rawApplication = .ok raws ∧
      List.Forall₂ AffectedApplication.Reports entries (raws.map affectedApplication) := by
  induction entries with
  | nil => exact ⟨[], rfl, .nil⟩
  | cons entry entries ih =>
      obtain ⟨raws, hRaws, hReports⟩ := ih fun e he => h e (List.mem_cons_of_mem _ he)
      obtain ⟨raw, hRaw, hReport⟩ := rawApplication_reports (h entry List.mem_cons_self)
      refine ⟨raw :: raws, ?_, .cons hReport hReports⟩
      simp [List.mapM_cons, hRaw, hRaws, bind, Except.bind, pure, Except.pure]

/-- The entries that the native call wrote are the ones that are kept. -/
theorem take_writeEntries {buffer entries list : List RmProcessInfo} (hPrefix : list <+: entries)
    (hLen : list.length ≤ buffer.length) : (writeEntries buffer entries).take list.length = list := by
  obtain ⟨rest, rfl⟩ := hPrefix
  rw [writeEntries, List.take_append_of_le_length (by simp; omega), List.take_take,
    Nat.min_eq_left hLen, List.take_left']
  rfl

theorem length_writeEntries (buffer entries : List RmProcessInfo) :
    (writeEntries buffer entries).length = buffer.length := by
  simp [writeEntries]
  omega

section

variable [Platform]

/-- The application lists that a session reports at its successive native
calls, with the reboot reasons there. -/
structure ApplicationHistory where
  list : Nat → List RmProcessInfo
  rebootReasons : Nat → UInt32
  terminated : ∀ i, ∀ entry ∈ list i, entry.Terminated

def isListCall : Call → Bool
  | .rmGetList .. => true
  | _ => false

/-- The number of `RmGetList` calls of a run. -/
def listCalls (trace : Trace) : Nat := trace.countP fun event => isListCall event.1

namespace ApplicationHistory

variable (history : ApplicationHistory)

def sizes (i : Nat) : Nat := (history.list i).length

/-- What `RmGetList` answers at its call number `i`. -/
def Answers (i : Nat) (supplied : UInt32) (reply : GetListReply) : Prop :=
  if history.sizes i ≤ supplied.toNat then
    reply.code = ERROR_SUCCESS ∧ history.list i <+: reply.entries ∧
      reply.supplied.toNat = history.sizes i ∧ reply.rebootReasons = history.rebootReasons i
  else reply.code = ERROR_MORE_DATA ∧ reply.needed.toNat = history.sizes i

/-- The state is the number of list calls made. At most nine are allowed, and
every reservation is granted. -/
def contract (raw : UInt32) : Contract Call.Response Nat where
  guarantee n c := match c with
    | .rmGetList raw' _ => raw' = raw ∧ n ≤ MAX_LIST_ATTEMPTS
    | .tryReserveExact .. => True
    | _ => False
  rely n c := match c with
    | .rmGetList _ supplied => history.Answers n supplied
    | .tryReserveExact .. => fun response => response ≠ none
    | _ => fun _ => True
  next n c _ := match c with
    | .rmGetList .. => n + 1
    | _ => n

variable {history} {raw : UInt32}

theorem after_contract (trace : Trace) (n : Nat) :
    (history.contract raw).after n trace = n + listCalls trace := by
  have hNext : ∀ n c r, (history.contract raw).next n c r = n + (isListCall c).toNat := by
    intro n c r
    cases c <;> rfl
  exact Contract.after_count hNext n trace

/-- The result is the list and the reasons of one call: the first whose list
fit the buffer. -/
inductive Listed (history : ApplicationHistory) : SysResult RawAffectedApplications → Prop
  | fetched {i : Nat} (hi : i ≤ MAX_LIST_ATTEMPTS) (first : FirstFit history.sizes i)
      {raws : List RawApplication} (decoded : (history.list i).mapM rawApplication = .ok raws) :
      Listed history (.ok ⟨raws, history.rebootReasons i⟩)
  | changed (none_fits : ∀ i ≤ MAX_LIST_ATTEMPTS, ¬Fits history.sizes i) :
      Listed history (.error (.dataChanged ERROR_MORE_DATA))

/-- The fetches that are left, when no earlier call had room for the list. -/
theorem wp_fetchApplications (attempts i : Nat) (needed : UInt32)
    (hNeeded : needed.toNat = history.sizes i) (hCount : i + attempts = MAX_LIST_ATTEMPTS)
    (hNone : ∀ j ≤ i, ¬Fits history.sizes j) :
    (history.contract raw).wp (fetchApplications raw attempts needed).run
      (fun result n => n ≤ MAX_LIST_ATTEMPTS + 1 ∧ history.Listed result) (i + 1) := by
  induction attempts generalizing i needed with
  | zero =>
      obtain rfl : i = MAX_LIST_ATTEMPTS := by simpa using hCount
      exact ⟨le_rfl, .changed hNone⟩
  | succ attempts ih =>
      rw [fetchApplications, usizeTryFrom_eq, pure_bind, Contract.wp_run_bind, wp_sysCall]
      refine ⟨trivial, fun response hResponse => ?_⟩
      obtain ⟨allocation, rfl⟩ := Option.ne_none_iff_exists'.mp hResponse
      change Contract.wp _ _ _ (i + 1)
      rw [Contract.wp_run_bind, wp_sysCall]
      refine ⟨⟨rfl, by omega⟩, fun reply hReply => ?_⟩
      change Contract.wp _ _ _ (i + 1 + 1)
      by_cases hFit : history.sizes (i + 1) ≤ needed.toNat
      · obtain ⟨hCode, hEntries, hReturned, hReasons⟩ : _ ∧ _ := (if_pos hFit).mp hReply
        rw [hCode, if_neg (by decide), Contract.wp_run_bind, wp_ofResult]
        change Contract.wp _ _ _ (i + 1 + 1)
        rw [usizeTryFrom_eq, pure_bind, hReturned, if_neg (by rw [length_writeEntries]; simpa using hFit),
          Contract.wp_run_bind, wp_ofResult, ApplicationHistory.sizes,
          take_writeEntries hEntries (by simpa [sizes] using hFit)]
        obtain ⟨raws, hRaws, -⟩ := mapM_rawApplication (history.terminated (i + 1))
        rw [hRaws, hReasons]
        have hFirst : FirstFit history.sizes (i + 1) :=
          ⟨hFit.trans_eq hNeeded, fun j hj => hNone j (by omega)⟩
        exact ⟨by omega, .fetched (by omega) hFirst hRaws⟩
      · obtain ⟨hCode, hNeeded'⟩ : _ ∧ _ := (if_neg hFit).mp hReply
        rw [hCode, if_pos rfl]
        refine ih (i + 1) _ hNeeded' (by omega) fun j hj => ?_
        rcases Nat.lt_or_eq_of_le hj with h | h
        · exact hNone j (by omega)
        · rwa [h, Fits, room, ← hNeeded]

theorem wp_affectedApplications : (history.contract raw).wp (affectedApplications raw).run
    (fun result n => n ≤ MAX_LIST_ATTEMPTS + 1 ∧ history.Listed result) 0 := by
  rw [affectedApplications, Contract.wp_run_bind, wp_sysCall]
  refine ⟨⟨rfl, by omega⟩, fun first hFirst => ?_⟩
  change Contract.wp _ _ _ 1
  by_cases hFit : Fits history.sizes 0
  · obtain ⟨hCode, -, -, hReasons⟩ : _ ∧ _ := (if_pos hFit).mp hFirst
    have hEmpty : history.list 0 = [] := List.length_eq_zero_iff.mp (Nat.le_zero.mp hFit)
    rw [if_pos hCode, hReasons]
    exact ⟨by omega, .fetched (by omega) ⟨hFit, fun j hj => absurd hj j.not_lt_zero⟩
      (by rw [hEmpty]; rfl)⟩
  · obtain ⟨hCode, hNeeded⟩ : _ ∧ _ := (if_neg hFit).mp hFirst
    rw [hCode, if_neg (by decide), if_neg (fun h => h rfl)]
    refine wp_fetchApplications MAX_LIST_ATTEMPTS 0 _ hNeeded rfl fun j hj => ?_
    obtain rfl : j = 0 := by omega
    exact hFit

end ApplicationHistory

/-- At most nine calls are made. The report describes the list and the reasons
of the first call whose list fit, and an error says that none did. -/
theorem affectedApplications_snapshot {core : SessionCore} {history : ApplicationHistory}
    {trace : Trace} {result : Except Error AffectedApplications}
    (run : core.affectedApplications.run.Exec trace result)
    (hNative : (history.contract core.handle.raw).Conforms 0 trace) :
    listCalls trace ≤ 9 ∧
      match firstFit? history.sizes 8 with
      | some i => ∃ report, result = .ok report ∧
          List.Forall₂ AffectedApplication.Reports (history.list i) report.applications ∧
          report.rebootReasons.bits = history.rebootReasons i
      | none => result = .error (.new .dataChanged (some ERROR_MORE_DATA)
          "the Restart Manager list kept changing through all eight retries") := by
  have hReport : (history.contract core.handle.raw).wp core.affectedApplications.run
      (fun result n => n ≤ 9 ∧ ∃ listed, history.Listed listed ∧
        result = (listed.mapError (mapOperationError · .report)).map applicationReport) 0 := by
    rw [SessionCore.affectedApplications, Contract.wp_run_bind, wp_mapErr]
    refine Contract.wp_mono _ ApplicationHistory.wp_affectedApplications ?_
    rintro (error | listed) n ⟨hCount, hListed⟩
    · exact ⟨hCount, _, hListed, rfl⟩
    · exact ⟨hCount, _, hListed, rfl⟩
  obtain ⟨-, hCount, listed, hListed, rfl⟩ := Contract.wp_exec _ run hReport hNative
  rw [ApplicationHistory.after_contract, Nat.zero_add] at hCount
  refine ⟨hCount, ?_⟩
  cases hListed with
  | @fetched i hi first raws decoded =>
      obtain ⟨raws', hRaws, hReports⟩ := mapM_rawApplication (history.terminated i)
      obtain rfl : raws' = raws := Except.ok.inj (hRaws.symm.trans decoded)
      rw [firstFit?_eq_some.mpr ⟨hi, first⟩]
      exact ⟨_, rfl, hReports, rfl⟩
  | changed none_fits =>
      rw [firstFit?_eq_none.mpr none_fits]
      rfl

end

section

attribute [local instance] Platform.driveLetters

/-- A service that runs and can be restarted. -/
def serviceEntry : RmProcessInfo where
  process := ⟨1234, ⟨5, 1⟩⟩
  strAppName := (Vector.replicate 256 0).set 0 0x41
  strServiceShortName := (Vector.replicate 64 0).set 0 0x73
  applicationType := 3
  appStatus := 1
  tsSessionId := 0
  bRestartable := 1

theorem serviceEntry_terminated : serviceEntry.Terminated := ⟨by decide, by decide⟩

/-- A nameless application exits while a service comes to use a resource.
For one call both are listed. -/
def changingApplications : ApplicationHistory where
  list
    | 0 => [default]
    | 1 => [default, serviceEntry]
    | _ => [serviceEntry]
  rebootReasons i := .ofNat i
  terminated i entry h := by
    have hEntry : entry = default ∨ entry = serviceEntry := by
      split at h <;> simp_all
    rcases hEntry with rfl | rfl
    · exact ⟨by decide, by decide⟩
    · exact serviceEntry_terminated

/-- The list grows while it is fetched, and then shrinks to one service. -/
theorem affectedApplications_snapshot_changing : ∃ report : AffectedApplications,
    List.Forall₂ AffectedApplication.Reports [serviceEntry] report.applications ∧
      report.rebootReasons.bits = 2 := by
  let core : SessionCore := ⟨⟨3, false⟩, ⟨List.replicate 32 0x30, by decide⟩⟩
  let trace : Trace := [⟨.rmGetList 3 0, ⟨ERROR_MORE_DATA, 1, 0, [], 0⟩⟩,
    ⟨.tryReserveExact 1 668, some ⟨4096, by decide, by decide⟩⟩,
    ⟨.rmGetList 3 1, ⟨ERROR_MORE_DATA, 2, 0, [], 0⟩⟩,
    ⟨.tryReserveExact 2 668, some ⟨8192, by decide, by decide⟩⟩,
    ⟨.rmGetList 3 2, ⟨ERROR_SUCCESS, 1, 1, [serviceEntry], 2⟩⟩]
  have run : core.affectedApplications.run.Exec trace
      (.ok (applicationReport ⟨[serviceEntry.decoded], 2⟩)) :=
    .step (.step (.step (.step (.step (.refl _)))))
  have hProbe : changingApplications.Answers 0 0 ⟨ERROR_MORE_DATA, 1, 0, [], 0⟩ := ⟨rfl, rfl⟩
  have hGrown : changingApplications.Answers 1 1 ⟨ERROR_MORE_DATA, 2, 0, [], 0⟩ := ⟨rfl, rfl⟩
  have hFetch : changingApplications.Answers 2 2 ⟨ERROR_SUCCESS, 1, 1, [serviceEntry], 2⟩ :=
    ⟨rfl, List.prefix_rfl, rfl, rfl⟩
  have hNative : (changingApplications.contract 3).Conforms 0 trace :=
    ⟨hProbe, Option.some_ne_none _, hGrown, Option.some_ne_none _, hFetch, trivial⟩
  obtain ⟨-, report, -, hReports, hReasons⟩ := affectedApplications_snapshot run hNative
  exact ⟨report, hReports, hReasons⟩

end
end RestartManager
