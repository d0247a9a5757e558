import RestartManager.Session.NativeSafety
import RestartManager.Tokio.Refinement

/-! Every native call of a session, blocking or behind a facade, is made as the
boundary of the crate asks. -/
namespace RestartManager

open Interaction Contract Program Transition

section

variable [Platform] {opening : Tokio.Opening}

theorem wp_safe_start : safetyContract.wp SessionCore.start
    (fun result s' => ∀ core, result = .ok core → core.Held s') .none := by
  apply SessionCore.wp_start
  · exact ⟨nofun, trivial, rfl⟩
  · rintro reply key hCode - _ ⟨⟩
    exact ⟨rfl, if_pos hCode, rfl⟩
  · intro reply hCode _
    exact ⟨⟨handle_live (if_pos hCode), trivial, trivial⟩, nofun⟩
  · exact fun _ _ _ _ => nofun

theorem wp_safe_join (key : SessionKey) : safetyContract.wp (SessionCore.join key).run
    (fun result s' => ∀ core, result = .ok core → core.Held s') .none := by
  apply SessionCore.wp_join
  · exact ⟨nofun, WideString.terminated_new _, rfl⟩
  · rintro reply hCode - _ ⟨⟩
    exact ⟨rfl, if_pos hCode, rfl⟩
  · exact fun _ _ _ _ => nofun

theorem blocking_safe (opening : Tokio.Opening) : safetyContract.wp opening.blocking
    (fun result s' => ∀ value, result = .ok value → value.Held s') .none := by
  cases opening with
  | primary =>
      have hNew : safetyContract.wp RestartSession.new
          (fun result s' => ∀ session, result = .ok session → session.core.Held s') .none := by
        apply (wp_bind _ _ _ _ _).mpr
        apply wp_mono _ wp_safe_start
        intro result s' hCore session hSession
        cases result <;> cases hSession
        exact hCore _ rfl
      apply (wp_bind _ _ _ _ _).mpr
      apply wp_mono _ hNew
      intro result s' hSession value hValue
      cases result <;> cases hValue
      exact hSession _ rfl
  | joined key =>
      have hJoin : safetyContract.wp (JoinedSession.join key).run
          (fun result s' => ∀ session, result = .ok session → session.core.Held s') .none := by
        apply (wp_run_bind _ _ _ _ _).mpr
        apply wp_mono _ (wp_safe_join key)
        intro result s' hCore
        cases result with
        | error error => exact fun session hSession => nomatch hSession
        | ok core =>
            intro session hSession
            cases hSession
            exact hCore core rfl
      apply (wp_bind _ _ _ _ _).mpr
      apply wp_mono _ hJoin
      intro result s' hSession value hValue
      cases result <;> cases hValue
      exact hSession _ rfl

theorem keeps_held : Tokio.Keeps safetyContract Value.Held where
  rely _ _ _ := trivial
  perform := perform_safe
  drop := Value.drop_safe

end

/-- Whatever Windows answers, every call of a blocking program and of the worker
of a facade is safe, at any moment. -/
theorem native_calls_safe [Platform] (opening : Tokio.Opening) :
    (∀ ops flag trace, Tokio.BlockingTrace opening ops flag trace → CallsSafely trace) ∧
      ∀ history s, Run (Tokio.Step opening) .init₀ history s → CallsSafely (Tokio.calls history) := by
  have hBlocking (ops : List Op) (flag : Bool) (trace : Trace)
      (run : Tokio.BlockingTrace opening ops flag trace) : CallsSafely trace :=
    run.respects keeps_held (blocking_safe opening)
  exact ⟨hBlocking, fun history s run => hBlocking _ _ _ (Tokio.blockingTrace_of_run run)⟩

section

attribute [local instance] Platform.driveLetters

/-- A shutdown callback panics, and the session is restarted and ended. -/
theorem native_calls_safe_interrupted : CallsSafely
    [⟨.rmStartSession, ⟨ERROR_SUCCESS, 3, zeroKey⟩⟩, ⟨.installLease, true⟩,
      ⟨.rmShutdown 3 0 true, ⟨[10], ERROR_SUCCESS⟩⟩,
      ⟨.invokeCallback ⟨10, by decide⟩, some (.user 1)⟩, ⟨.releaseLease, ()⟩,
      ⟨.rmRestart 3 0 false, ⟨[], ERROR_FAIL_RESTART⟩⟩, ⟨.rmEndSession 3, ERROR_SUCCESS⟩] := by
  let core : SessionCore := ⟨⟨3, false⟩, ⟨List.replicate 32 0x30, by decide⟩⟩
  have hStart : Tokio.Opening.primary.blocking.Exec [⟨.rmStartSession, ⟨ERROR_SUCCESS, 3, zeroKey⟩⟩]
      (.ok (.session ⟨core⟩)) := .step (.refl _)
  have hShutdown : ∀ p, perform (.session ⟨core⟩) (.shutdownWithProgress {} .user) = some p → p.Exec
      [⟨.installLease, true⟩, ⟨.rmShutdown 3 0 true, ⟨[10], ERROR_SUCCESS⟩⟩,
        ⟨.invokeCallback ⟨10, by decide⟩, some (.user 1)⟩, ⟨.releaseLease, ()⟩,
        ⟨.rmRestart 3 0 false, ⟨[], ERROR_FAIL_RESTART⟩⟩, ⟨.rmEndSession 3, ERROR_SUCCESS⟩]
      (.gone, .panicked (.user 1)) := by
    rintro _ ⟨⟩
    exact .step (.step (.step (.step (.step (.step (.refl _))))))
  have run : Tokio.Blocking .primary [.shutdownWithProgress {} .user] _ _ _ :=
    (Tokio.Blocking.opened hStart).perform rfl (hShutdown _ rfl)
  exact (native_calls_safe .primary).1 _ _ _ (.idle run)

end

end RestartManager
