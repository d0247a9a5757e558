import RestartManager.Tokio.Abandonment
import RestartManager.Tokio.Ownership

/-! The cancellation that a dropped shutdown future sends. It is over before the
worker leaves its loop, so that it never meets the recovery. -/
namespace RestartManager

open Interaction Transition

/-- The operations of a session that was shut down. -/
inductive Op.Recovers : Op → Prop
  | restart : Recovers .restart
  | restartWithProgress (callback : Callback) : Recovers (.restartWithProgress callback)
  | leaveStopped : Recovers .leaveStopped

namespace Tokio

/-- The handles of a session that is not shut down. -/
inductive Handle.Early : Handle → Prop
  | session (key : SessionKey) (raw : UInt32) : Early (.session key raw)
  | joined (key : SessionKey) : Early (.joined key)

theorem Handle.Early.consumed {handle : Handle} {op : Op} {command : Command} {future : Future}
    (h : handle.Early) (hSends : handle.consumed op = some (command, future)) : ¬op.Recovers := by
  intro hRecovers
  cases h <;> cases hRecovers <;> cases hSends

theorem borrowed_early {handle : Handle} {op : Op} {command : Command}
    (hSends : handle.borrowed op = some command) : ¬op.Recovers := by
  intro hRecovers
  cases handle <;> cases hRecovers <;> cases hSends

section

variable [Platform]

/-- The client has begun no recovery. -/
def Client.Early : Client → Prop
  | .holding handle | .borrowing handle _ => handle.Early
  | .awaiting (.shutdown ..) _ => True
  | .unpolled | .opening | .cancelling _ => True
  | _ => False

theorem shutdown_early {handle : Handle} {op : Op} {command : Command} {future : Future} {ticket : Nat}
    (hSends : handle.consumed op = some (command, future))
    (h : (Client.awaiting future ticket).Early) : handle.Early := by
  unfold Handle.consumed at hSends
  split at hSends <;> cases hSends <;> first | exact .session _ _ | exact h.elim

theorem yielded_early {future : Future} {reply : Reply} {handle : Handle} {ticket : Nat}
    (hHandle : future.handle reply = some handle) (h : handle.Early) :
    (Client.awaiting future ticket).Early := by
  unfold Future.handle at hHandle
  split at hHandle <;> cases hHandle <;> trivial

section

variable {opening : Opening} {history : List Label} {s t : System} {l : Label}

/-- No recovery leads back to the session. -/
theorem Step.early (step : Step opening s l t) (h : t.client.Early) :
    s.client.Early ∧ ∀ op command, l.sent? = some (op, command) → ¬op.Recovers := by
  have hSilent {client : Client} {l : Label} (h : client.Early) (hSent : l.sent? = none) :
      client.Early ∧ ∀ op command, l.sent? = some (op, command) → ¬op.Recovers := by
    rw [hSent]
    exact ⟨h, fun op command hSome => absurd hSome.symm (Option.some_ne_none _)⟩
  cases step
  case borrow handle op command hClient method alive =>
    refine ⟨hClient ▸ h, ?_⟩
    rintro op' command' ⟨⟩
    exact borrowed_early method
  case consume handle op command future hClient method alive =>
    rw [hClient]
    have hEarly : handle.Early := shutdown_early method h
    refine ⟨hEarly, ?_⟩
    rintro op' command' ⟨⟩
    exact hEarly.consumed method
  case consumeReply future ticket reply hClient received =>
    rw [hClient]
    dsimp only at h
    cases hHandle : future.handle reply with
    | none =>
        rw [hHandle] at h
        exact h.elim
    | some handle =>
        rw [hHandle] at h
        exact hSilent (yielded_early hHandle h) rfl
  case spawn hClient => exact hSilent (hClient ▸ trivial) rfl
  case openedHandle hClient received => exact hSilent (hClient ▸ trivial) rfl
  case borrowReply hClient received => exact hSilent (hClient ▸ h) rfl
  case borrowLost hClient empty terminated => exact hSilent (hClient ▸ h) rfl
  case borrowDropped hClient => exact hSilent (hClient ▸ h) rfl
  case cancel hClient => exact hSilent (hClient ▸ trivial) rfl
  case cancelCall hClient => exact hSilent (hClient ▸ trivial) rfl
  case spawnFailed => exact h.elim
  case openedError => exact h.elim
  case openedNothing => exact h.elim
  case consumeFailed => exact h.elim
  case consumeLost => exact h.elim
  case abandon => exact h.elim
  all_goals exact hSilent h rfl

theorem early_of_run (run : Run (Step opening) .init₀ history s) (h : s.client.Early) :
    ∀ op command, (op, command) ∈ sent history → ¬op.Recovers := by
  induction run with
  | refl => exact fun op command hMem => absurd hMem List.not_mem_nil
  | @snoc history t u l run step ih =>
      obtain ⟨hBefore, hSent⟩ := step.early h
      intro op command hMem
      rw [sent_snoc, List.mem_append] at hMem
      rcases hMem with hMem | hMem
      · exact ih hBefore op command hMem
      · exact hSent op command (Option.mem_toList.mp hMem)

end

/-! ### Cancellations -/

/-- What the drop of a shutdown future does to the recovery: nothing, at any
moment of the worker. -/
structure DroppedShutdown (history : List ObjectLabel) (o : Objects) : Prop where
  /-- While a future waits, or its drop runs, the worker is in its loop. -/
  inside : (o.live ≠ none ∨ ∃ rest, o.system.client = .cancelling rest) → .facade .cleanup ∉ history
  /-- A cancellation comes before the worker drops its typestate, and before any
  operation that recovers what the shutdown stopped. -/
  before : ∀ first event second, history = first ++ .facade (.cancel event) :: second →
    .facade .cleanup ∉ first ∧
    ∀ op command, .facade (.send op command) ∈ first → ¬op.Recovers
  /-- When the worker leaves its loop, the cancellation is over. -/
  finished : ∀ first second, history = first ++ .facade .cleanup :: second →
    ∀ event, .facade (.cancel event) ∉ second
  /-- A future that was ready cancels nothing when it is dropped. -/
  ready : ∀ object ∈ o.ready, ∀ upgraded, object.dropBody upgraded = none
  silent : o.leaving = [] ∧ ∀ event, .cancel event ∉ history

section

variable {opening : Opening} {history : List ObjectLabel} {o : Objects}

/-- A cancellation is a step of a client that drops a shutdown future. -/
theorem ObjectStep.cancels {o' : Objects} {event : Event}
    (step : ObjectStep opening o (.facade (.cancel event)) o') :
    ∃ rest, o.system.client = .cancelling rest := by
  generalize hLabel : ObjectLabel.facade (.cancel event) = l at step
  cases step with
  | facade step =>
      cases hLabel
      cases step with
      | cancelCall h => exact ⟨_, h⟩
  | @yield _ _ _ _ received =>
      match received with
      | .pending => cases hLabel
      | .ready (.ok _) => cases hLabel
      | .ready (.error _) => cases hLabel
  | dropCall client => exact ⟨_, client⟩
  | _ => cases hLabel

/-- The worker leaves its loop only after the client is gone. -/
theorem gone_of_cleanup (run : Run (ObjectStep opening) .init₀ history o)
    (h : .facade .cleanup ∈ history) : o.system.client = .gone := by
  obtain ⟨-, run', -⟩ := facade_of_run run
  obtain ⟨first, second, hSplit⟩ := List.append_of_mem (mem_facadeLabels.mpr h)
  rw [hSplit] at run'
  exact (cleanup_split run').1.1

/-- Whenever the client drops a shutdown future, and however the worker goes on. -/
theorem dropped_shutdown (run : Run (ObjectStep opening) .init₀ history o) :
    DroppedShutdown history o := by
  obtain ⟨hIntact, -, hCancel, -⟩ := facade_of_run run
  constructor
  case inside =>
    intro h hMem
    have hGone := gone_of_cleanup run hMem
    have hLive : o.live ≠ none := by
      rcases h with hLive | ⟨rest, hClient⟩
      · exact hLive
      · exact hIntact.cancelling rest hClient
    rcases hIntact.waiting hLive with ⟨future, ticket, hClient⟩ | ⟨rest, hClient⟩
    · simp [hGone] at hClient
    · simp [hGone] at hClient
  case before =>
    rintro first event second rfl
    obtain ⟨p, p', before, here, -⟩ := run.split
    obtain ⟨rest, hClient⟩ := here.cancels
    obtain ⟨-, run', -⟩ := facade_of_run before
    constructor
    · intro hMem
      have hGone := gone_of_cleanup before hMem
      simp [hGone] at hClient
    · intro op command hMem
      apply early_of_run run' (hClient ▸ trivial) op command
      exact List.mem_filterMap.mpr ⟨_, mem_facadeLabels.mpr hMem, rfl⟩
  case finished =>
    rintro first second rfl event hMem
    obtain ⟨between, rest, rfl⟩ := List.append_of_mem hMem
    obtain ⟨p, p', before, here, -⟩ := @Run.split _ _ _ _ _ (first ++ .facade .cleanup :: between) rest
      (.facade (.cancel event)) (by simpa using run)
    obtain ⟨rest, hClient⟩ := here.cancels
    have hGone := gone_of_cleanup before (by simp)
    simp [hGone] at hClient
  case ready => exact hIntact.ready
  case silent => exact ⟨hIntact.leaving, hCancel⟩

end

end

section

attribute [local instance] Platform.driveLetters

/-- A shutdown future is polled once, and dropped when its reply has been sent. -/
def unpolledReply : List ObjectLabel :=
  [.facade .silent, .facade (.call ⟨.rmStartSession, ⟨ERROR_SUCCESS, 3, zeroKey⟩⟩), .facade .silent,
    .facade .silent, .facade .silent, .facade (.send .shutdown (.shutdown {})), .pending,
    .facade (.execute (.shutdown {})), .facade (.call ⟨.rmShutdown 3 0 false, ⟨[], ERROR_SUCCESS⟩⟩),
    .facade (.answer 0 (.shutdown (.pending .succeeded))), .facade .silent,
    .facade (.cancel ⟨.rmCancelCurrentTask 3, ERROR_SUCCESS⟩), .facade .abandon, .facade .cleanup,
    .facade (.call ⟨.rmRestart 3 0 false, ⟨[], ERROR_SUCCESS⟩⟩),
    .facade (.call ⟨.rmEndSession 3, ERROR_SUCCESS⟩), .facade .silent]

theorem dropped_unpolled : ∃ o, o.system.worker = .terminated ∧ DroppedShutdown unpolledReply o := by
  let core : SessionCore := ⟨⟨3, false⟩, ⟨List.replicate 32 0x30, by decide⟩⟩
  have run : ∃ o, Run (ObjectStep .primary) .init₀ unpolledReply o ∧ o.system.worker = .terminated := by
    apply Exists.intro
    constructor
    apply Run.cons (.facade (.spawn rfl) (.inr ⟨rfl, by simp⟩) (by simp))
    apply Run.cons (.facade (.openCall rfl) (.inl rfl) (by simp))
    apply Run.cons (.facade (@Step.openDone _ _ _ (.primary ⟨core⟩) _ rfl) (.inl rfl) (by simp))
    apply Run.cons (.facade (.initSent rfl rfl) (.inl rfl) (by simp))
    apply Run.cons (.facade (.openedHandle rfl rfl) (.inr ⟨rfl, by simp⟩) (by simp))
    apply Run.cons (.create (.consume rfl rfl (by simp)) rfl rfl)
    apply Run.cons (@ObjectStep.poll _ _ _ _ _ _ _ .pending rfl rfl ⟨rfl, by simp⟩ rfl)
    apply Run.cons (.facade (.take rfl rfl) (.inl rfl) (by simp))
    apply Run.cons (.facade (.executeCall rfl) (.inl rfl) (by simp))
    apply Run.cons (.facade (.answer rfl) (.inl rfl) (by simp))
    apply Run.cons (@ObjectStep.drop _ _ _ _ _ _ (some false) _ rfl rfl rfl)
    apply Run.cons (.dropCall rfl)
    apply Run.cons (.dropFields rfl (.inl ⟨_, rfl⟩))
    apply Run.cons (.facade (.disconnect rfl rfl rfl) (.inl rfl) fun _ _ _ => Objects.not_holdsSender rfl rfl)
    apply Run.cons (.facade (.dropCall rfl) (.inl rfl) (by simp))
    apply Run.cons (.facade (.dropCall rfl) (.inl rfl) (by simp))
    apply Run.cons (.facade (.terminate rfl) (.inl rfl) (by simp))
    exact .refl
    rfl
  obtain ⟨o, run, hWorker⟩ := run
  exact ⟨o, hWorker, dropped_shutdown run⟩

end

end Tokio
end RestartManager
