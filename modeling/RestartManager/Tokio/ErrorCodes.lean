import RestartManager.Session.ErrorCodes
import RestartManager.Tokio.OwnPanics
import RestartManager.Tokio.Refinement

/-! Where the Win32 codes of errors come from in whole sessions: whatever is
returned, shown or sent back by the worker, at any time. -/
namespace RestartManager

open Interaction Contract Program Transition

section

variable [Platform] {opening : Tokio.Opening} {ops : List Op} {trace : Trace} {value : Value}
  {last : Option Output}

/-- A session that is not opened tells which call failed. -/
theorem opening_blamed {error : Error} (run : opening.blocking.Exec trace (.error error)) :
    Blamed trace error := by
  cases opening with
  | primary =>
      obtain ⟨first, second, created, rfl, hNew, final⟩ := exec_bind_iff.mp run
      obtain ⟨rfl, hValue⟩ := exec_done_iff.mp final
      obtain ⟨started, hStart, rfl⟩ := exec_map_iff.mp hNew
      obtain ⟨reply, hStarted⟩ := exec_recording hStart wp_started
      rw [List.append_nil]
      cases hStarted with
      | opened => cases hValue
      | malformed _ _ _ hRaw =>
          cases hValue
          exact .inl hRaw
      | failed hCode =>
          cases hValue
          exact .inr ⟨_, List.mem_singleton_self _, .start hCode⟩
  | joined key =>
      obtain ⟨first, second, joined, rfl, hJoin, final⟩ := exec_bind_iff.mp run
      obtain ⟨rfl, hValue⟩ := exec_done_iff.mp final
      rw [List.append_nil]
      rcases exec_run_bind_iff.mp hJoin with ⟨error', hCore, rfl⟩ | ⟨_, _, _, rfl, -, hRest⟩
      · cases hValue
        obtain ⟨reply, rfl, hReply⟩ := exec_join hCore
        by_cases hCode : reply.code = ERROR_SUCCESS
        · rw [check, if_pos hCode] at hReply
          cases hReply
        · rw [check, if_neg hCode] at hReply
          cases hReply
          exact .inr ⟨_, List.mem_singleton_self _, .join hCode⟩
      · obtain ⟨-, rfl⟩ := exec_done_iff.mp hRest
        cases hValue

theorem opened_errors (run : opening.blocking.Exec trace (.ok value)) : value.errors = [] := by
  cases opening with
  | primary =>
      obtain ⟨_, _, created, -, -, final⟩ := exec_bind_iff.mp run
      obtain ⟨-, hValue⟩ := exec_done_iff.mp final
      cases created <;> cases hValue
      rfl
  | joined key =>
      obtain ⟨_, _, joined, -, -, final⟩ := exec_bind_iff.mp run
      obtain ⟨-, hValue⟩ := exec_done_iff.mp final
      cases joined <;> cases hValue
      rfl

/-- What is known after an operation is blamed on the whole run. -/
theorem Known.blamed {later : Trace} {error : Error} (h : Known value later error)
    (hHeld : ∀ error ∈ value.errors, Blamed trace error) : Blamed (trace ++ later) error := by
  rcases h with hMem | hBlamed
  · exact (hHeld error hMem).mono (List.subset_append_left _ _)
  · exact hBlamed.mono (List.subset_append_right _ _)

/-- Step and run: what an owner holds and was last shown is blamed on its calls. -/
theorem blocking_blamed (run : Tokio.Blocking opening ops trace value last) :
    (∀ error ∈ value.errors, Blamed trace error) ∧
      ∀ output, last = some output → ∀ error ∈ output.errors, Blamed trace error := by
  induction run with
  | opened run =>
      refine ⟨by simp [opened_errors run], ?_⟩
      intro output hOutput
      cases hOutput
  | perform before method run ih =>
      obtain ⟨m, hFits⟩ := before.fits
      have hAccounted := perform_accounted hFits method run
      refine ⟨fun error h => (hAccounted.retained error h).blamed ih.1, ?_⟩
      rintro _ ⟨⟩ error h
      exact (hAccounted.shown error h).blamed ih.1
  | retry before method run ih =>
      obtain ⟨m, hFits⟩ := before.fits
      have hAccounted := perform_accounted hFits method run
      refine ⟨fun error h => (hAccounted.retained error h).blamed ih.1, ?_⟩
      intro output hOutput
      cases hOutput

/-- The errors in a reply of the worker. -/
def Tokio.Reply.errors : Tokio.Reply → List Error
  | .done result => errorsOf result
  | .applications result => errorsOf result
  | .filters result => errorsOf result
  | .recovery result => errorsOf result ++ result.toOption.toList.flatMap RecoveryOutcome.errors
  | .shutdown (.pending outcome) => outcome.errors
  | .shutdown (.recoverable error) | .shutdown (.failed error) => [error]
  | .restart (.completed outcome) => outcome.errors
  | .restart (.recoverable error) | .restart (.failed error) => [error]

omit [Platform] in
/-- A reply has the errors of what it carries. -/
theorem carries_errors {reply : Tokio.Reply} {output : Output} (h : reply.Carries value output) :
    ∀ error ∈ reply.errors, error ∈ value.errors ∨ error ∈ output.errors := by
  intro error hError
  cases h with
  | done => exact .inr hError
  | applications => exact .inr hError
  | filters => exact .inr hError
  | ended => exact .inr hError
  | @pending held outcome h =>
      refine .inl ?_
      have hShown : error ∈ outcome.errors := hError
      obtain ⟨core, _ | shutdown⟩ := held <;> cases h
      simpa [Value.errors] using hShown
  | shutdownNotStarted => exact .inr hError
  | @completion held =>
      have hShown : error ∈ ([] : List Error) ++ [held.outcome].flatMap RecoveryOutcome.errors := hError
      exact .inl (by simpa [Value.errors] using hShown)
  | completed => exact .inl hError
  | restartNotStarted => exact .inr hError

end

/-- The codes of the errors of one session. -/
structure ErrorCodes [Platform] (opening : Tokio.Opening) : Prop where
  unopened (trace : Trace) (error : Error) (run : opening.blocking.Exec trace (.error error)) :
    Blamed trace error
  returned (ops : List Op) (trace : Trace) (value : Value) (output : Output)
    (run : Tokio.Blocking opening ops trace value (some output)) : ∀ error ∈ output.errors, Blamed trace error
  /-- No failure of a call is passed over. -/
  clean (ops : List Op) (trace later : Trace) (value value' : Value) (last : Option Output) (op : Op)
    (output : Output) (p : Native (Value × Output)) (run : Tokio.Blocking opening ops trace value last)
    (method : perform value op = some p) (made : p.Exec later (value', output)) :
    op.Returns → output.Succeeds → Clean later
  replied (first second : List Tokio.Label) (ticket : Nat) (reply : Tokio.Reply) (s : Tokio.System)
    (run : Run (Tokio.Step opening) .init₀ (first ++ .yield ticket reply :: second) s) :
    ∀ error ∈ reply.errors, Blamed (Tokio.calls first) error

/-- Whatever is returned, shown or sent back in a session, an error that has a
Win32 code is made from a call of the session that returned this code, for the
operation that the call is made for. -/
theorem error_codes [Platform] (opening : Tokio.Opening) : ErrorCodes opening where
  unopened _ _ run := opening_blamed run
  returned _ _ _ output run := (blocking_blamed run).2 output rfl
  clean _ _ _ _ _ _ _ _ _ run method made := by
    obtain ⟨m, hFits⟩ := run.fits
    exact (perform_accounted hFits method made).clean
  replied first second ticket reply s run := by
    intro error hError
    obtain ⟨⟨trace, value, output, hPrefix, hBlocking, hCarries⟩, -⟩ := Tokio.yield_returned run
    obtain ⟨hHeld, hShown⟩ := blocking_blamed hBlocking
    have hBlamed : Blamed trace error :=
      (carries_errors hCarries error hError).elim (hHeld error) (hShown output rfl error)
    exact hBlamed.mono hPrefix.subset

end RestartManager
