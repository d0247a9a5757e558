import RestartManager.Session.Transcripts

/-! What a method with progress delivers and retains when its callback does not
panic, and how it agrees with the plain method. -/
namespace RestartManager

open Interaction Program

/-- What is retained of an answer of Windows, when these values were delivered. -/
inductive Retains (operation : Operation) (reply : OperationReply) (values : List Progress) :
    OperationOutcome → Prop
  | failed (code : reply.code ≠ ERROR_SUCCESS) :
      Retains operation reply values (.failed (mapOperationError (.os reply.code) operation))
  | malformed (code : reply.code = ERROR_SUCCESS)
      (proper : values.map Progress.toNative ≠ reply.reports) :
      Retains operation reply values (.failed malformedProgressError)
  | succeeded (code : reply.code = ERROR_SUCCESS)
      (whole : values.map Progress.toNative = reply.reports) :
      Retains operation reply values .succeeded

theorem retains_outcome (operation : Operation) (reply : OperationReply) :
    Retains operation reply (deliveries none reply.reports) (reply.outcome operation true) := by
  unfold OperationReply.outcome retainedOutcome
  by_cases hCode : reply.code = ERROR_SUCCESS
  · rw [if_neg (not_not.mpr hCode)]
    by_cases hReports : Increasing reply.reports
    · simpa [hReports] using Retains.succeeded hCode (map_deliveries_eq.mpr hReports)
    · simpa [hReports] using Retains.malformed hCode fun h => hReports (map_deliveries_eq.mp h)
  · rw [if_pos hCode]
    exact .failed hCode

/-- When every report was delivered, the plain method retains the same. -/
theorem outcome_whole {reply : OperationReply} {operation : Operation}
    (h : Increasing reply.reports) : reply.outcome operation true = reply.outcome operation false := by
  have hNone : Increasing [] := ⟨.nil, nofun⟩
  simp [OperationReply.outcome, retainedOutcome, h, hNone]

variable [Platform]

/-- The lease is free and no callback panics. -/
def Calm (trace : Trace) : Prop :=
  ⟨.installLease, false⟩ ∉ trace ∧ ∀ progress payload, panicked progress payload ∉ trace

/-- A method that takes a callback, beside the plain method of the same native
call. `retained` is the value that both return with an outcome. -/
structure ExactProgress {α ε : Type} (operation : Operation) (native : OperationReply → Event)
    (method : Callback → UnwindM (Except ε α)) (plain : UnwindM α) (retained : OperationOutcome → α) :
    Prop where
  /-- Windows can raise any reports and return any code. -/
  answered : ∀ reply, ∃ trace result, (method .user).run.Exec trace result ∧ Calm trace ∧
    native reply ∈ trace
  /-- The callback is called on the longest valid prefix of the reports, which is
  one, in order, and for nothing after it. -/
  delivered : ∀ trace result, (method .user).run.Exec trace result → Calm trace →
    ∃ reply values outcome, LongestPrefix reply.reports values ∧
      (∀ values', LongestPrefix reply.reports values' → values' = values) ∧
      trace = ⟨.installLease, true⟩ :: native reply ::
        (values.map Callback.user.delivered ++ [⟨.releaseLease, ()⟩]) ∧
      Retains operation reply values outcome ∧ result = .ok (.ok (retained outcome)) ∧
      (values.map Progress.toNative = reply.reports →
        plain.run.Exec (nativeTrace trace) (.ok (retained outcome)))

section

variable {α ε : Type} {operation : Operation} {native : OperationReply → Event}
  {method : Callback → UnwindM (Except ε α)} {plain : UnwindM α} {retained : OperationOutcome → α}

theorem calm_completed {callback : Callback} {values : List Progress} {reply : OperationReply}
    (hNative : withoutCallback (native reply) ≠ none) :
    Calm (⟨.installLease, true⟩ :: native reply ::
      (values.map callback.delivered ++ [⟨.releaseLease, ()⟩])) := by
  constructor
  · intro hMem
    simp only [List.mem_cons, List.mem_append, List.mem_map, List.not_mem_nil, or_false] at hMem
    rcases hMem with h | h | ⟨progress, -, h⟩ | h
    · cases h
    · exact hNative (h ▸ rfl)
    · cases callback <;> cases h
    · cases h
  · intro progress payload hMem
    simp only [List.mem_cons, List.mem_append, List.mem_map, List.not_mem_nil, or_false] at hMem
    rcases hMem with h | h | ⟨progress', -, h⟩ | h
    · cases h
    · exact hNative (h ▸ rfl)
    · cases callback <;> cases h
    · cases h

theorem nativeTrace_completed {callback : Callback} {values : List Progress} {event : Event} :
    nativeTrace (⟨.installLease, true⟩ :: event ::
      (values.map callback.delivered ++ [⟨.releaseLease, ()⟩])) = nativeTrace [event] := by
  have hSplit : (⟨.installLease, true⟩ :: event ::
      (values.map callback.delivered ++ [⟨.releaseLease, ()⟩]) : Trace) =
      [⟨.installLease, true⟩] ++ [event] ++ values.map callback.delivered ++ [⟨.releaseLease, ()⟩] := by
    simp
  have hInstall : nativeTrace [⟨.installLease, true⟩] = [] := rfl
  have hRelease : nativeTrace [⟨.releaseLease, ()⟩] = [] := rfl
  rw [hSplit, nativeTrace_append, nativeTrace_append, nativeTrace_append, nativeTrace_delivered,
    hInstall, hRelease]
  simp

theorem exactProgress {refused : Except ε α} {abandoned : Native Unit}
    (hMethod : ∀ trace result, (method .user).run.Exec trace result ↔
      ProgressRun .user native refused (fun reply => .ok (retained (reply.outcome operation true)))
        abandoned trace result)
    (hPlain : ∀ reply, plain.run.Exec (nativeTrace [native reply])
      (.ok (retained (reply.outcome operation false))))
    (hNative : ∀ reply, withoutCallback (native reply) ≠ none) :
    ExactProgress operation native method plain retained where
  answered reply :=
    ⟨_, _, (hMethod _ _).mpr .completed, calm_completed (hNative reply), by simp⟩
  delivered trace result run hCalm := by
    cases (hMethod _ _).mp run with
    | refused => exact absurd List.mem_cons_self hCalm.1
    | @completed reply =>
        refine ⟨reply, _, _, deliveries_longestPrefix, fun _ h => h.eq_deliveries, rfl,
          retains_outcome operation reply, rfl, ?_⟩
        intro hWhole
        rw [nativeTrace_completed, outcome_whole (map_deliveries_eq.mp hWhole)]
        exact hPlain reply
    | @panicked reply before rest progress payload recovery reached user dropped =>
        refine absurd ?_ (hCalm.2 progress payload)
        simp

end

/-- Shutdown and restart deliver their progress exactly, and agree with the
plain methods when Windows keeps its promise about the reports. -/
theorem progress_delivery (session : RestartSession) (options : ShutdownOptions) (core : SessionCore)
    (shutdown : OperationOutcome) :
    ExactProgress .shutdown
      (fun reply => ⟨.rmShutdown session.core.handle.raw options.nativeFlags true, reply⟩)
      (session.shutdownWithProgress options) (session.shutdownWithOptions options)
      (fun outcome => ⟨some session.core, some outcome⟩) ∧
    ExactProgress .restart (fun reply => ⟨.rmRestart core.handle.raw 0 true, reply⟩)
      (RestartPending.mk (some core) (some shutdown)).restartWithProgress
      (RestartPending.mk (some core) (some shutdown)).restart
      (fun outcome => ⟨core, ⟨shutdown, some outcome⟩⟩) := by
  constructor
  · apply exactProgress
    · exact fun trace result => exec_shutdownWithProgress_iff
    · intro reply
      rw [shutdownWithOptions_run]
      exact .step (.refl _)
    · exact fun reply => Option.some_ne_none _
  · apply exactProgress
    · exact fun trace result => exec_restartWithProgress_iff
    · intro reply
      rw [restart_run]
      exact .step (.refl _)
    · exact fun reply => Option.some_ne_none _

end RestartManager
