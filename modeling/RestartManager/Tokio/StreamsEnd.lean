import RestartManager.Tokio.LastProgress
import RestartManager.Tokio.Liveness

/-! A client that reads progress before it polls its future. The command was
sent when the method was called, so the worker carries it out meanwhile: every
stream comes to its end, and then the reply is there. -/
namespace RestartManager

open Interaction Program Transition

namespace Tokio

section

variable [Platform]

/-- The label of the worker, of the drop of a sender, or of a `recv` that gets
a value. -/
def WatchLabel.Drains : WatchLabel → Prop
  | .facade l => l.OfWorker
  | .write .. | .dropSender _ => True
  | .clone _ => False
  | .receive _ _ l => ∀ result, l ≠ .closed result

/-- A step while the client does nothing but read the progress of its operations. -/
structure Drains (opening : Opening) (w : Watching) (l : WatchLabel) (w' : Watching) : Prop where
  step : WatchStep opening w l w'
  label : l.Drains
  client : w'.system.client = w.system.client

/-- The next `recv` returns `None`. -/
def Watching.Ended (w : Watching) (r : Receiver) : Prop :=
  r.reader = ProgressReceiver.recv ∧ (w.channels r.ticket).version = r.seen ∧
    (w.channels r.ticket).closed = true

/-- Every stream is at its end, and what its operation replied is there. -/
structure Drained (w : Watching) : Prop where
  queue : w.system.queue = []
  answered : w.system.Answered
  ended : ∀ (i : Nat) (r : Receiver), w.receivers[i]? = some r → w.Ended r
  replied : ∀ (i : Nat) (r : Receiver), w.receivers[i]? = some r → w.system.replies r.ticket ≠ none

/-! ### What is left to do -/

/-- The steps that a receiver can take before it waits for the next value. -/
def Watching.left (w : Watching) (r : Receiver) : Nat :=
  (if (w.channels r.ticket).version = r.seen then 0 else 2) +
    match r.reader with
    | .call .borrow _ => 1
    | _ => 0

/-- The end of the arm, and the steps of the receivers. -/
def Watching.unread (w : Watching) : Nat :=
  w.arm.elim 0 (fun _ => 1) + ∑ i ∈ Finset.range w.receivers.length, (w.receivers[i]?.elim 0 w.left)

/-- Where the sender of a command with progress is. -/
inductive Watching.Sender (w : Watching) (ticket : Nat) : Prop
  | queued {command : Command} (mem : (ticket, command) ∈ w.system.queue)
      (progress : command.HasProgress)
  | borrowed {command : Command} {rest : Native (Except Payload Reply × WorkerState)}
      (worker : w.system.worker = .executing ticket command rest) (progress : command.HasProgress)
  | replied (arm : w.arm = some ticket)
  | dropped (closed : (w.channels ticket).closed = true)

section

variable {opening : Opening} {history : List WatchLabel} {w w' : Watching} {l : WatchLabel}
  {i ticket : Nat} {r : Receiver}

/-! ### Where the senders are -/

/-- A step of the facade moves no sender but that of the command it takes. -/
theorem Watching.Sender.facade (h : w.Sender ticket) {history : List Label}
    (run : Run (Step opening) .init₀ history w.system) {l : Label} {t : System}
    {receivers : List Receiver} (step : Step opening w.system l t)
    (unused : ∀ ticket command rest, w.system.worker = .executing ticket command rest →
      command.HasProgress → ¬l.UsesSender) :
    Watching.Sender { w with system := t, receivers } ticket := by
  cases h with
  | @queued command mem progress =>
      cases step with
      | borrow | consume => exact .queued (List.mem_append_left _ mem) progress
      | take _ queued =>
          rw [queued] at mem
          rcases List.mem_cons.mp mem with hTaken | hLater
          · cases hTaken
            exact .borrowed rfl progress
          · exact .queued hLater progress
      | _ => exact .queued mem progress
  | @borrowed command rest worker progress =>
      have hUnused := unused ticket command rest worker progress
      cases step with
      | executeCall hWorker =>
          cases worker.symm.trans hWorker
          exact .borrowed rfl progress
      | answer | unwind => exact absurd trivial hUnused
      | openCall hWorker | openFailed hWorker | openDone hWorker | initSent hWorker | initUnsent hWorker
      | take hWorker | disconnect hWorker | dropCall hWorker | terminate hWorker =>
          cases worker.symm.trans hWorker
      | spawn hClient =>
          obtain ⟨done, flight, h⟩ := Pipeline.of_run run
          obtain ⟨hPhase, -⟩ := h.coupled
          rw [worker] at hPhase
          exact absurd hClient hPhase
      | _ => exact .borrowed worker progress
  | replied arm => exact .replied arm
  | dropped closed => exact .dropped closed

/-- A sender that is dropped moves no other one. -/
theorem Watching.Sender.close (h : w.Sender ticket) {other : Nat} {arm : Option Nat}
    (hArm : w.arm = some ticket → ticket = other ∨ arm = some ticket) :
    Watching.Sender { w.close other with arm } ticket := by
  cases h with
  | queued mem progress => exact .queued mem progress
  | borrowed worker progress => exact .borrowed worker progress
  | replied armed =>
      rcases hArm armed with rfl | hStill
      · exact .dropped (w.close_closed ticket)
      · exact .replied hStill
  | dropped closed => exact .dropped (w.close_closed_of_closed closed)

/-- A write leaves every sender where it is. -/
theorem Watching.Sender.write (h : w.Sender ticket) {other : Nat} {command : Command}
    {rest : Native (Except Payload Reply × WorkerState)} {value : Progress} {t : System}
    (worker : w.system.worker = .executing other command rest)
    (step : Step opening w.system (.call ⟨.sendReplace value, ()⟩) t) :
    Watching.Sender { w with
      system := t
      channels := Function.update w.channels other ((w.channels other).sendReplace (some value)) }
      ticket := by
  cases step with
  | openCall hWorker | dropCall hWorker => cases worker.symm.trans hWorker
  | executeCall hWorker =>
      cases h with
      | queued mem progress => exact .queued mem progress
      | borrowed hBorrowed progress =>
          cases hWorker.symm.trans hBorrowed
          exact .borrowed rfl progress
      | replied arm => exact .replied arm
      | dropped closed =>
          exact .dropped ((w.closed_sendReplace other ticket (some value)).trans closed)

/-- The worker replies, and its arm has the sender. -/
theorem Watching.Sender.reply (h : w.Sender ticket) (channels : Channels history w) {other : Nat}
    {reply : Reply} {t : System} (step : Step opening w.system (.answer other reply) t) :
    Watching.Sender { w with system := t, arm := some other } ticket := by
  obtain ⟨⟨command, state, hWorker, -⟩, -⟩ := step.answered
  cases h with
  | queued mem progress =>
      have hQueue : t.queue = w.system.queue := by
        cases step
        rfl
      exact .queued (hQueue ▸ mem) progress
  | borrowed worker progress =>
      cases worker.symm.trans hWorker
      exact .replied rfl
  | replied arm =>
      obtain ⟨⟨state, hIdle⟩, -⟩ := channels.arm ticket arm
      cases hWorker.symm.trans hIdle
  | dropped closed => exact .dropped closed

theorem Watching.Sender.step (h : w.Sender ticket) (run : Run (WatchStep opening) .init₀ history w)
    (step : WatchStep opening w l w') : w'.Sender ticket := by
  obtain ⟨hRun, channels⟩ := channels_of_run run
  cases step with
  | facade step plain unused waits => exact h.facade hRun step unused
  | subscribe step progress => exact h.facade hRun step fun _ _ _ _ _ => id
  | write worker progress step => exact h.write worker step
  | reply worker progress step => exact h.reply channels step
  | dropSender arm => exact h.close fun hArm => .inl (Option.some.inj (hArm.symm.trans arm))
  | unwind worker progress step => exact absurd step (executing_cleanup hRun worker)
  | discard worker queued progress => exact h.close .inr
  | clone | receive =>
      cases h with
      | queued mem progress => exact .queued mem progress
      | borrowed worker progress => exact .borrowed worker progress
      | replied arm => exact .replied arm
      | dropped closed => exact .dropped closed

/-- A receiver reads the channel of a command whose sender is somewhere. -/
theorem receiver_sender (run : Run (WatchStep opening) .init₀ history w) :
    ∀ r ∈ w.receivers, w.Sender r.ticket := by
  induction run with
  | refl => exact fun r hMem => absurd hMem List.not_mem_nil
  | @snoc history w w' l run step ih =>
      have hOld (r : Receiver) (hMem : r ∈ w.receivers) : w'.Sender r.ticket := (ih r hMem).step run step
      cases step with
      | facade | write | reply | dropSender | unwind | discard => exact hOld
      | subscribe step progress =>
          intro r hMem
          rcases List.mem_append.mp hMem with hMem | hNew
          · exact hOld r hMem
          · obtain rfl := List.mem_singleton.mp hNew
            cases step <;> exact .queued List.mem_concat_self progress
      | clone h =>
          intro r hMem
          rcases List.mem_append.mp hMem with hMem | hNew
          · exact hOld r hMem
          · obtain rfl := List.mem_singleton.mp hNew
            exact hOld r (List.mem_of_getElem? h)
      | @receive _ r₀ _ _ h =>
          intro r hMem
          rcases List.mem_or_eq_of_mem_set hMem with hMem | rfl
          · exact hOld r hMem
          · exact hOld r₀ (List.mem_of_getElem? h)

/-! ### What a step leaves -/

theorem Finds.left_lt {l : ProgressReceiver.Label} {s : ProgressReceiver.State} (h : Finds w r l s)
    (hValue : ∀ result, l ≠ .closed result) :
    w.left { r with seen := s.seen, reader := s.reader } < w.left r := by
  cases h with
  | newer reader version seen next =>
      simp [Watching.left, seen, next, version, reader, ProgressReceiver.peek, ProgressReceiver.recv,
        Program.request]
  | nothing => exact absurd rfl (hValue _)
  | value reader seen next =>
      simp [Watching.left, seen, next, reader, ProgressReceiver.peek, ProgressReceiver.recv,
        Program.request]

/-- The arm ends. -/
theorem unread_dropSender (hArm : w.arm = some ticket) :
    Watching.unread { w.close ticket with arm := none } < w.unread := by
  have hLeft (r : Receiver) : Watching.left { w.close ticket with arm := none } r = w.left r := by
    change (if ((w.close ticket).channels r.ticket).version = r.seen then 0 else 2) + _ = _
    rw [Watching.close_version]
    rfl
  simp only [Watching.unread, funext hLeft, hArm]
  exact Nat.add_lt_add_right Nat.one_pos _

/-- A receiver moves. -/
theorem unread_receive (hReceiver : w.receivers[i]? = some r) {r' : Receiver} (hLess : w.left r' < w.left r) :
    Watching.unread { w with receivers := w.receivers.set i r' } < w.unread := by
  obtain ⟨hLength, -⟩ := List.getElem?_eq_some_iff.mp hReceiver
  have hSet (j : Nat) : (w.receivers.set i r')[j]? =
      Function.update (fun j => w.receivers[j]?) i (some r') j := by
    by_cases hj : j = i
    · rw [hj, Function.update_self, List.getElem?_set_self hLength]
    · rw [Function.update_of_ne hj, List.getElem?_set_ne (Ne.symm hj)]
  have hMem : i ∈ Finset.range w.receivers.length := Finset.mem_range.mpr hLength
  have hElim : (some r').elim 0 w.left < (w.receivers[i]?).elim 0 w.left := by
    rw [hReceiver]
    exact hLess
  have hSum := @sum_update_lt _ _ _ _ (fun r : Option Receiver => r.elim 0 w.left)
    (fun j => w.receivers[j]?) _ _ hMem hElim
  simp only [Watching.unread, List.length_set, hSet]
  exact Nat.add_lt_add_left hSum _

/-- The worker goes on, or less is left unread. -/
theorem Drains.decreases (h : Drains opening w l w') (run : Run (WatchStep opening) .init₀ history w) :
    flip (Prod.Lex (flip Working) (· < ·)) ((w.system.worker, w.system.queue), w.unread)
      ((w'.system.worker, w'.system.queue), w'.unread) := by
  obtain ⟨step, hLabel, hClient⟩ := h
  have hWorks {l' : Label} {t : System} (works : Works opening w.system l' t) (n : Nat) :
      flip (Prod.Lex (flip Working) (· < ·)) ((w.system.worker, w.system.queue), w.unread)
        ((t.worker, t.queue), n) := Prod.Lex.left _ _ works.working
  cases step with
  | facade step => exact hWorks ⟨step, hLabel, hClient⟩ _
  | subscribe => exact hLabel.elim
  | write _ _ step | reply _ _ step | unwind _ _ step => exact hWorks ⟨step, trivial, hClient⟩ _
  | clone => exact hLabel.elim
  | dropSender arm => exact Prod.Lex.right _ (unread_dropSender arm)
  | discard worker queued =>
      rw [terminated_queue (channels_of_run run).1 worker] at queued
      cases queued
  | @receive i r l s hReceiver reads step =>
      have hReading := (receivers_of_run run).reading i r hReceiver
      have hFinds := finds (hReading.reader.imp_right And.left) reads step
      exact Prod.Lex.right _ (unread_receive hReceiver (hFinds.left_lt hLabel))

/-! ### At rest -/

/-- A step that the worker can take is one of the facade, or one of an arm that
has its sender. -/
theorem Works.drains {labels : List Label}
    (run : Run (Step opening) .init₀ labels w.system) (hArm : w.arm = none)
    {l' : Label} {t : System} (h : Works opening w.system l' t) : ∃ l w', Drains opening w l w' := by
  obtain ⟨step, hLabel, hClient⟩ := h
  by_cases hUses : ∃ ticket command rest, w.system.worker = .executing ticket command rest ∧
      command.HasProgress ∧ l'.UsesSender
  · obtain ⟨ticket, command, rest, hWorker, hProgress, hUses⟩ := hUses
    cases l' with
    | call event =>
        obtain ⟨c, response⟩ := event
        cases c with
        | sendReplace value => exact ⟨_, _, .write hWorker hProgress step, trivial, hClient⟩
        | _ => exact hUses.elim
    | answer ticket' reply =>
        obtain ⟨⟨command', state, hExecuting, -⟩, -⟩ := step.answered
        cases hWorker.symm.trans hExecuting
        exact ⟨_, _, .reply hWorker hProgress step, trivial, hClient⟩
    | cleanup => exact absurd step (executing_cleanup run hWorker)
    | _ => exact hUses.elim
  · refine ⟨_, _, .facade step ?_ ?_ fun hBusy => absurd hArm hBusy, hLabel, hClient⟩
    · rintro op command rfl
      exact hLabel.elim
    · intro ticket command rest hWorker hProgress hUsed
      exact hUses ⟨ticket, command, rest, hWorker, hProgress, hUsed⟩

/-- Where nothing moves, every stream is at its end. -/
theorem drained_of_stuck (run : Run (WatchStep opening) .init₀ history w)
    (hStuck : ∀ l w', ¬Drains opening w l w') : Drained w := by
  obtain ⟨system, channels⟩ := channels_of_run run
  have hArm : w.arm = none := by
    cases hArm : w.arm with
    | none => rfl
    | some ticket => exact absurd ⟨.dropSender hArm, trivial, rfl⟩ (hStuck _ _)
  have hSystem (l' : Label) (t : System) : ¬Works opening w.system l' t := by
    intro works
    obtain ⟨l, w', step⟩ := works.drains system hArm
    exact hStuck l w' step
  obtain ⟨hQueue, hRested⟩ := rested_of_stuck system hSystem
  have hClosed (i : Nat) (r : Receiver) (hReceiver : w.receivers[i]? = some r) :
      (w.channels r.ticket).closed = true := by
    cases receiver_sender run r (List.mem_of_getElem? hReceiver) with
    | queued mem =>
        rw [hQueue] at mem
        cases mem
    | borrowed worker => simp [WorkerPhase.Rested, worker] at hRested
    | replied arm => cases hArm.symm.trans arm
    | dropped closed => exact closed
  refine ⟨hQueue, (answered_of_stuck system hSystem).2, fun i r hReceiver => ?_,
    fun i r hReceiver => channels.closed r.ticket (hClosed i r hReceiver)⟩
  rcases ((receivers_of_run run).reading i r hReceiver).reader with hRecv | ⟨hPeek, -⟩
  · refine ⟨hRecv, ?_, hClosed i r hReceiver⟩
    by_contra hNewer
    exact hStuck _ _ ⟨.receive hReceiver (by trivial) (.changed hRecv hNewer), fun _ => by simp, rfl⟩
  · exact absurd ⟨.receive hReceiver (by trivial) (.peek hPeek rfl), fun _ => by simp, rfl⟩ (hStuck _ _)

/-- From any reachable state, whatever Windows answers and however the worker
and the readers take turns: a client that only reads the progress of its
operations comes to the end of every stream, and then every reply is there. -/
theorem streams_end (run : Run (WatchStep opening) .init₀ history w) :
    Inevitable (Drains opening) w fun w' => w'.system.client = w.system.client ∧ Drained w' := by
  let Inv (v : Watching) : Prop := v.system.client = w.system.client ∧
    ∃ history, Run (WatchStep opening) .init₀ history v
  have hInit : Inv w := ⟨rfl, history, run⟩
  have hFinite : Acc (Prod.Lex (flip Working) (· < ·))
      ((w.system.worker, w.system.queue), w.unread) :=
    Prod.lexAccessible (Working.finite w.system.worker) wellFounded_lt.apply _
  refine Inevitable.of_progress
    (fun v : Watching => ((v.system.worker, v.system.queue), v.unread)) hFinite ?_ hInit ?_ ?_
  · rintro v l v' ⟨-, later, before⟩ step
    exact step.decreases before
  · rintro v l v' ⟨hClient, later, before⟩ step
    exact ⟨step.client.trans hClient, _, before.snoc step.step⟩
  · rintro v ⟨hClient, later, before⟩ hStuck
    exact ⟨hClient, drained_of_stuck before hStuck⟩

/-- A facade that begins no progress, and has no arm to end, moves as it does
without receivers. -/
theorem watched_of_run {s : System} {history : List Label} (run : Run (Step opening) w.system history s)
    (hArm : w.arm = none)
    (hPlain : ∀ l ∈ history, (∀ op command, l = .send op command → ¬command.HasProgress) ∧
      ¬l.UsesSender) :
    Run (WatchStep opening) w (history.map .facade) { w with system := s } := by
  induction run with
  | refl => exact .refl
  | @snoc history s t l run step ih =>
      obtain ⟨hSends, hUnused⟩ := hPlain l (by simp)
      have before := ih fun l' hMem => hPlain l' (by simp [hMem])
      rw [List.map_append]
      exact before.snoc (.facade step hSends (fun _ _ _ _ _ => hUnused) fun hBusy => absurd hArm hBusy)

end

end

section

attribute [local instance] Platform.driveLetters

/-- A shutdown with progress was sent, and its receiver is read before anything
else happens. -/
theorem streams_end_unpolled : ∃ (w : Watching) (r : Receiver), w.receivers = [r] ∧ ¬w.Ended r ∧
    w.system.replies r.ticket = none ∧
    Inevitable (Drains .primary) w fun w' => w'.system.client = w.system.client ∧ Drained w' := by
  let core : SessionCore := ⟨⟨3, false⟩, ⟨List.replicate 32 0x30, by decide⟩⟩
  have opened : ∃ s, Run (Step .primary) .init₀
      [.silent, .call ⟨.rmStartSession, ⟨ERROR_SUCCESS, 3, zeroKey⟩⟩, .silent, .silent, .silent] s ∧
      s.sent = 0 ∧ ∃ t, Step .primary s (.send (.shutdownWithProgress {} .watch)
        (.shutdownWithProgress {})) t ∧ t.replies 0 = none := by
    apply Exists.intro
    constructor
    apply Run.cons (.spawn rfl)
    apply Run.cons (.openCall rfl)
    apply Run.cons (@Step.openDone _ _ _ (.primary ⟨core⟩) _ rfl)
    apply Run.cons (.initSent rfl rfl)
    apply Run.cons (.openedHandle rfl rfl)
    exact .refl
    exact ⟨rfl, _, .consume rfl rfl nofun, rfl⟩
  obtain ⟨s, before, hSent, t, step, hReply⟩ := opened
  have run := (@watched_of_run _ _ .init₀ _ _ before rfl (by simp [Label.UsesSender])).snoc
    (.subscribe step trivial)
  have hReceivers : [Receiver.new s.sent] = [.new 0] := by rw [hSent]
  have hOpen : (Watching.init₀.channels 0).closed = false := rfl
  refine ⟨_, .new 0, hReceivers, ?_, hReply, streams_end run⟩
  rintro ⟨-, -, hClosed⟩
  exact absurd (hOpen.symm.trans hClosed) (by decide)

end

end Tokio
end RestartManager
