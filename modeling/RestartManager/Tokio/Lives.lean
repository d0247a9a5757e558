import RestartManager.Session.RetainedOutcomes
import RestartManager.Tokio.Refinement

/-! The blocking program behind a facade is the life of a session, so that what
holds of every life holds of the calls of every worker. -/
namespace RestartManager

open Interaction Contract Program Transition

namespace Tokio

variable [Platform] {ops : List Op} {trace : Trace} {value : Value} {last : Option Output}

theorem exec_primary_iff {result : Except Error Value} :
    Opening.primary.blocking.Exec trace result ↔
      ∃ started, RestartSession.new.Exec trace started ∧ result = started.map .session := by
  unfold Opening.blocking
  rw [← map_eq_pure_bind (fun started : Except Error RestartSession => started.map Value.session)]
  exact exec_map_iff

/-- The operations of the program are those of the life, which also takes the
state out of each refusal. -/
theorem Blocking.shown (h : Blocking .primary ops trace value last) :
    ∃ history outputs, Shown history value outputs ∧ events history = trace ∧
      (∀ op, op ≠ .intoParts → (.op op ∈ history ↔ op ∈ ops)) ∧ ∀ output ∈ last, output ∈ outputs := by
  induction h with
  | @opened trace value run =>
      obtain ⟨started, hRun, hStarted⟩ := exec_primary_iff.mp run
      cases started with
      | error error => cases hStarted
      | ok session =>
          cases hStarted
          refine ⟨_, [], .started hRun, events_calls, ?_, ?_⟩
          · simp
          · exact fun output hMem => absurd hMem (Option.not_mem_none _)
  | perform before method run ih =>
      obtain ⟨history, outputs, hShown, hTrace, hOps, -⟩ := ih
      refine ⟨_, _, hShown.perform method run, ?_, ?_, ?_⟩
      · rw [events_perform, hTrace]
      · intro op hOp
        simp [hOps op hOp]
      · intro output hMem
        cases hMem
        simp
  | retry before method run ih =>
      obtain ⟨history, outputs, hShown, hTrace, hOps, -⟩ := ih
      refine ⟨_, _, hShown.perform method run, ?_, ?_, ?_⟩
      · rw [events_perform, hTrace]
      · intro op hOp
        simp [hOps op hOp, hOp]
      · exact fun output hMem => absurd hMem (Option.not_mem_none _)

/-- At any moment its calls are those of an observed history. -/
theorem BlockingTrace.observed {flag : Bool} (h : BlockingTrace .primary ops flag trace) :
    ∃ history, Observed history ∧ events history = trace ∧
      ∀ callback, .op (.restartWithProgress callback) ∈ history → .restartWithProgress callback ∈ ops := by
  cases h with
  | @opening _ p run =>
      have hStart : ∃ q, RestartSession.new.Steps trace q := by
        rcases steps_bind_iff.mp run with ⟨q, hRun, -⟩ | ⟨first, second, result, rfl, hRun, hRest⟩
        · exact ⟨q, hRun⟩
        · obtain ⟨rfl, -⟩ := steps_done_iff.mp hRest
          rw [List.append_nil]
          exact ⟨_, hRun⟩
      obtain ⟨q, hRun⟩ := hStart
      exact ⟨_, .starting hRun, events_calls, by simp⟩
  | idle run =>
      obtain ⟨history, outputs, hShown, hTrace, hOps, -⟩ := run.shown
      exact ⟨history, .idle hShown.life, hTrace, fun callback => (hOps _ (by intro h; cases h)).mp⟩
  | @performing ops trace later value last op p q before method run =>
      obtain ⟨history, outputs, hShown, hTrace, hOps, -⟩ := before.shown
      refine ⟨_, .performing hShown.life method run, ?_, ?_⟩
      · rw [events_perform, hTrace]
      · intro callback
        simp [hOps (.restartWithProgress callback) (by intro h; cases h)]
  | @releasing _ trace later value last q before run =>
      obtain ⟨history, outputs, hShown, hTrace, hOps, -⟩ := before.shown
      have hKnown (callback : Callback) : .op (.restartWithProgress callback) ∈ history →
          .restartWithProgress callback ∈ ops := (hOps _ (by intro h; cases h)).mp
      by_cases hGone : value = .gone
      · subst hGone
        obtain ⟨rfl, -⟩ := steps_done_iff.mp run
        rw [List.append_nil]
        exact ⟨history, .idle hShown.life, hTrace, hKnown⟩
      · have hDrop : perform value .dropValue = some (do
            value.drop
            return (.gone, .done (.ok ()))) := by
          cases value <;> first | rfl | exact absurd rfl hGone
        refine ⟨_, .performing hShown.life hDrop (steps_bind_iff.mpr (.inl ⟨q, run, rfl⟩)), ?_, ?_⟩
        · rw [events_perform, hTrace]
        · intro callback hMem
          exact hKnown callback (by simpa using hMem)

/-! ### How often a facade restarts -/

section

variable {opening : Opening} {history : List Label} {s t : System} {op : Op} {command : Command}

/-- Every command is sent by a handle that has its method. -/
theorem Step.sends (step : Step opening s (.send op command) t) :
    ∃ handle : Handle, handle.Sends op command := by
  cases step with
  | borrow h method alive => exact ⟨_, .inl method⟩
  | consume h method alive => exact ⟨_, .inr ⟨_, method⟩⟩

omit [Platform] in
/-- The progress of a facade goes to a watch channel. -/
theorem Handle.Sends.watch {handle : Handle} (h : handle.Sends op command) :
    op ≠ .restartWithProgress .user := by
  rintro rfl
  rcases h with h | ⟨future, h⟩ <;> cases handle <;> cases h

theorem sent_watch (run : Run (Step opening) .init₀ history s) :
    .restartWithProgress .user ∉ (sent history).map Prod.fst := by
  induction run with
  | refl => exact List.not_mem_nil
  | @snoc history t u l run step ih =>
      rw [sent_snoc, List.map_append, List.mem_append, not_or]
      refine ⟨ih, ?_⟩
      cases l with
      | send op command =>
          obtain ⟨handle, hSends⟩ := step.sends
          simpa [Label.sent?] using hSends.watch.symm
      | _ => exact List.not_mem_nil

/-- The calls of the worker are those of a history without a panic. -/
theorem observed_of_run (run : Run (Step .primary) .init₀ history s) :
    ∃ entries, Observed entries ∧ events entries = calls history ∧ ¬RestartPanics entries := by
  obtain ⟨entries, hObserved, hCalls, hOps⟩ := (blockingTrace_of_run run).observed
  refine ⟨entries, hObserved, hCalls, fun hPanics => ?_⟩
  have hTaken := hOps .user (hObserved.panics_user hPanics)
  exact sent_watch run (List.mem_of_mem_take hTaken)

end

end Tokio

/-- A session is restarted at most once unless a callback that was given to its
restart panics; then its life has two restarts. Through the facade there is
never more than one. -/
theorem restart_once_iff [Platform] :
    (∀ history, Observed history → ¬RestartPanics history → RestartedOnce history) ∧
    (∀ history value, Life history value → (RestartedOnce history ↔ ¬RestartPanics history)) ∧
    ∀ history s, Run (Tokio.Step .primary) .init₀ history s →
      RestartedOnce ((Tokio.calls history).map .call) := by
  refine ⟨fun history => Observed.restartedOnce, fun history value => Life.restartedOnce_iff, ?_⟩
  intro history s run
  obtain ⟨entries, hObserved, hCalls, hCalm⟩ := Tokio.observed_of_run run
  have hOnce := restartedOnce_iff.mp (hObserved.restartedOnce hCalm)
  rw [← hCalls]
  exact restartedOnce_iff.mpr (restarts_events.symm ▸ hOnce)

section

attribute [local instance] Platform.driveLetters

theorem ten_le_hundred : (10 : UInt8) ≤ 100 := by decide

/-- A restart callback panics at its first report. -/
def repeatedRestart : List Entry :=
  [.call ⟨.rmStartSession, ⟨ERROR_SUCCESS, 3, zeroKey⟩⟩,
    .op .shutdown,
    .call ⟨.rmShutdown 3 0 false, ⟨[], ERROR_SUCCESS⟩⟩,
    .op (.restartWithProgress .user),
    .call ⟨.installLease, true⟩,
    .call ⟨.rmRestart 3 0 true, ⟨[10], ERROR_SUCCESS⟩⟩,
    .call ⟨.invokeCallback ⟨10, ten_le_hundred⟩, some (.user 1)⟩,
    .call ⟨.releaseLease, ()⟩,
    .call ⟨.rmRestart 3 0 false, ⟨[], ERROR_SUCCESS⟩⟩,
    .call ⟨.rmEndSession 3, ERROR_SUCCESS⟩]

/-- The drop restarts again what was restarted. -/
theorem restart_repeated : Life repeatedRestart .gone ∧ ¬RestartedOnce repeatedRestart := by
  let core : SessionCore := ⟨⟨3, false⟩, ⟨List.replicate 32 0x30, by decide⟩⟩
  have hStart : RestartSession.new.Exec [⟨.rmStartSession, ⟨ERROR_SUCCESS, 3, zeroKey⟩⟩]
      (.ok ⟨core⟩) := .step (.refl _)
  have hShutdown : ∀ p, perform (.session ⟨core⟩) .shutdown = some p → p.Exec
      [⟨.rmShutdown 3 0 false, ⟨[], ERROR_SUCCESS⟩⟩]
      (.pending ⟨some core, some .succeeded⟩, .state) := by
    rintro _ ⟨⟩
    exact .step (.refl _)
  have hRestart : ∀ p, perform (.pending ⟨some core, some .succeeded⟩)
      (.restartWithProgress .user) = some p → p.Exec
      [⟨.installLease, true⟩, ⟨.rmRestart 3 0 true, ⟨[10], ERROR_SUCCESS⟩⟩,
        ⟨.invokeCallback ⟨10, ten_le_hundred⟩, some (.user 1)⟩, ⟨.releaseLease, ()⟩,
        ⟨.rmRestart 3 0 false, ⟨[], ERROR_SUCCESS⟩⟩, ⟨.rmEndSession 3, ERROR_SUCCESS⟩]
      (.gone, .panicked (.user 1)) := by
    rintro _ ⟨⟩
    exact .step (.step (.step (.step (.step (.step (.refl _))))))
  constructor
  · exact ((Life.started hStart).perform rfl (hShutdown _ rfl)).perform rfl (hRestart _ rfl)
  · intro h
    have hOnce := restartedOnce_iff.mp h
    have hTwice : (restarts repeatedRestart).length = 2 := rfl
    omega

end

end RestartManager
