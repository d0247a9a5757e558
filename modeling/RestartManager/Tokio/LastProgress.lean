import RestartManager.Tokio.Coalescing

/-! What the receivers of progress are told: values that were delivered, in
order, the last of them at the end, and the end only after the reply. -/
namespace RestartManager

open Interaction Program Transition

namespace Tokio

variable [Platform]

section

variable {opening : Opening} {history : List WatchLabel} {w w' : Watching} {l : WatchLabel}
  {ticket i : Nat}

theorem written_snoc :
    written ticket (history ++ [l]) = written ticket history ++ (l.written? ticket).toList := by
  rw [written, written, List.filterMap_append]
  cases h : l.written? ticket <;> simp [h]

theorem reads_snoc : reads i (history ++ [l]) = reads i history ++ (l.read? i).toList := by
  rw [reads, reads, List.filterMap_append]
  cases h : l.read? i <;> simp [h]

theorem reads_quiet (h : l.read? i = none) : reads i (history ++ [l]) = reads i history := by
  rw [reads_snoc, h]
  exact List.append_nil _

theorem receivedBy_quiet (h : l.read? i = none) :
    receivedBy i (history ++ [l]) = receivedBy i history := by
  rw [receivedBy, reads_quiet h, receivedBy]

theorem reads_receive {l : ProgressReceiver.Label} :
    reads i (history ++ [.receive i ticket l]) = reads i history ++ [l] := by
  rw [reads_snoc, WatchLabel.read?, if_pos rfl]
  rfl

theorem receivedBy_receive {l : ProgressReceiver.Label} :
    receivedBy i (history ++ [.receive i ticket l]) =
      receivedBy i history ++ l.result?.join.toList := by
  rw [receivedBy, reads_receive, ProgressReceiver.received_snoc]
  rfl

/-! ### The channels -/

/-- The watch channels hold what the worker delivered. -/
structure Channels (history : List WatchLabel) (w : Watching) : Prop where
  value : ∀ ticket, (w.channels ticket).value = (written ticket history).getLast?
  version : ∀ ticket, (w.channels ticket).version = (written ticket history).length
  untaken : ∀ ticket, w.system.Untaken ticket → written ticket history = []
  executing : ∀ ticket command rest, w.system.worker = .executing ticket command rest →
    command.HasProgress → ∃ handle op future state trace, Handle.Matches handle state ∧
      handle.consumed op = some (command, future) ∧
      (executeCommand command state).Steps trace rest ∧ written ticket history = replaced trace
  delivered : ∀ ticket, ∃ reports, written ticket history <+: deliveries none reports
  closed : ∀ ticket, (w.channels ticket).closed = true → w.system.replies ticket ≠ none
  arm : ∀ ticket, w.arm = some ticket →
    (∃ state, w.system.worker = .idle state) ∧ w.system.replies ticket ≠ none

theorem Channels.init₀ : Channels [] .init₀ where
  value _ := rfl
  version _ := rfl
  untaken _ _ := rfl
  executing ticket command rest h := by cases h
  delivered _ := ⟨[], List.prefix_rfl⟩
  closed ticket h := by cases h
  arm ticket h := by cases h

/-- Only what was written matters of the history. -/
theorem Channels.of_written {later : List WatchLabel} (h : Channels history w)
    (hWritten : ∀ ticket, written ticket later = written ticket history) : Channels later w where
  value ticket := by
    rw [hWritten]
    exact h.value ticket
  version ticket := by
    rw [hWritten]
    exact h.version ticket
  untaken ticket hUntaken := by
    rw [hWritten]
    exact h.untaken ticket hUntaken
  executing ticket command rest hWorker hProgress := by
    rw [hWritten]
    exact h.executing ticket command rest hWorker hProgress
  delivered ticket := by
    rw [hWritten]
    exact h.delivered ticket
  closed := h.closed
  arm := h.arm

theorem Channels.silent (h : Channels history w) (hLabel : ∀ ticket, l.written? ticket = none) :
    Channels (history ++ [l]) w := by
  apply h.of_written
  intro ticket
  rw [written_snoc, hLabel]
  exact List.append_nil _

/-- A step of the facade that delivers no progress. -/
theorem Channels.facade (h : Channels history w)
    (run : Run (Step opening) .init₀ (watchedLabels history) w.system)
    {l : Label} {t : System} {receivers : List Receiver} {arm : Option Nat}
    (step : Step opening w.system l t)
    (unwritten : ∀ ticket command rest value, w.system.worker = .executing ticket command rest →
      command.HasProgress → l ≠ .call ⟨.sendReplace value, ()⟩)
    (hArm : ∀ ticket, arm = some ticket → (∃ state, t.worker = .idle state) ∧ t.replies ticket ≠ none) :
    Channels (history ++ [.facade l]) ⟨t, w.channels, receivers, arm⟩ := by
  have h' : Channels (history ++ [.facade l]) w := h.silent fun _ => rfl
  refine ⟨h'.value, h'.version, ?_, ?_, h'.delivered, ?_, hArm⟩
  · exact fun ticket hUntaken => h'.untaken ticket (step.untaken hUntaken)
  · intro ticket command rest hWorker hProgress
    cases step.executes hWorker with
    | still worker quiet => exact h'.executing ticket command rest worker hProgress
    | taken worker queued rest_eq quiet =>
        obtain ⟨handle, op, future, hMatches, hSends⟩ := taken_matches run worker queued hProgress
        refine ⟨handle, op, future, _, [], hMatches, hSends, rest_eq ▸ .refl _, ?_⟩
        exact h'.untaken ticket (.inr ⟨command, queued ▸ List.mem_cons_self⟩)
    | @called c next response worker call rest_eq =>
        obtain ⟨handle, op, future, state, trace, hMatches, hSends, hSteps, hReplaced⟩ :=
          h'.executing ticket command _ worker hProgress
        refine ⟨handle, op, future, state, trace ++ [⟨c, response⟩], hMatches, hSends,
          rest_eq ▸ hSteps.snoc response, ?_⟩
        have hQuiet : replaced [⟨c, response⟩] = [] := by
          cases c with
          | sendReplace value => exact absurd call (unwritten ticket command _ value worker hProgress)
          | _ => rfl
        rw [replaced_append, hQuiet, List.append_nil]
        exact hReplaced
  · exact fun ticket hClosed => step.replied (h.closed ticket hClosed)

/-- The worker delivers one more value. -/
theorem Channels.write (h : Channels history w)
    (run : Run (Step opening) .init₀ (watchedLabels history) w.system) {command : Command}
    {rest : Native (Except Payload Reply × WorkerState)} {value : Progress} {t : System}
    (worker : w.system.worker = .executing ticket command rest) (progress : command.HasProgress)
    (step : Step opening w.system (.call ⟨.sendReplace value, ()⟩) t) :
    Channels (history ++ [.write ticket value])
      ⟨t, Function.update w.channels ticket ((w.channels ticket).sendReplace (some value)),
        w.receivers, w.arm⟩ := by
  have hSelf : written ticket (history ++ [.write ticket value]) = written ticket history ++ [value] := by
    rw [written_snoc, WatchLabel.written?, if_pos rfl]
    rfl
  have hOther {other : Nat} (hNe : other ≠ ticket) :
      written other (history ++ [.write ticket value]) = written other history := by
    rw [written_snoc, WatchLabel.written?, if_neg hNe.symm]
    exact List.append_nil _
  have hExecuting : ∀ other command rest, t.worker = .executing other command rest →
      command.HasProgress → ∃ handle op future state trace, Handle.Matches handle state ∧
        handle.consumed op = some (command, future) ∧
        (executeCommand command state).Steps trace rest ∧
        written other (history ++ [.write ticket value]) = replaced trace := by
    intro other command' rest' hWorker hProgress
    cases step.executes hWorker with
    | still _ quiet => cases quiet
    | taken hIdle => simp [worker] at hIdle
    | @called c next response hCalling call rest_eq =>
        cases call
        rw [worker] at hCalling
        cases hCalling
        obtain ⟨handle, op, future, state, trace, hMatches, hSends, hSteps, hReplaced⟩ :=
          h.executing ticket command _ worker hProgress
        refine ⟨handle, op, future, state, trace ++ [⟨.sendReplace value, ()⟩], hMatches, hSends,
          rest_eq ▸ hSteps.snoc (), ?_⟩
        rw [hSelf, hReplaced, replaced_append]
        rfl
  refine ⟨?_, ?_, ?_, hExecuting, ?_, ?_, ?_⟩
  · intro other
    by_cases hTicket : other = ticket
    · subst hTicket
      rw [hSelf, List.getLast?_concat]
      simp [Watch.Channel.sendReplace]
    · rw [hOther hTicket]
      simpa [Function.update_of_ne hTicket] using h.value other
  · intro other
    by_cases hTicket : other = ticket
    · subst hTicket
      rw [hSelf, List.length_append]
      simpa [Watch.Channel.sendReplace] using h.version other
    · rw [hOther hTicket]
      simpa [Function.update_of_ne hTicket] using h.version other
  · intro other hUntaken
    have hBefore := step.untaken hUntaken
    by_cases hTicket : other = ticket
    · subst hTicket
      exact absurd hBefore (executing_taken run worker)
    · rw [hOther hTicket]
      exact h.untaken other hBefore
  · intro other
    by_cases hTicket : other = ticket
    · subst hTicket
      have hWorker : ∃ rest, t.worker = .executing other command rest := by
        cases step with
        | openCall h => simp [worker] at h
        | dropCall h => simp [worker] at h
        | executeCall h =>
            rw [worker] at h
            cases h
            exact ⟨_, rfl⟩
      obtain ⟨rest', hWorker⟩ := hWorker
      obtain ⟨handle, op, future, state, trace, hMatches, hSends, hSteps, hReplaced⟩ :=
        hExecuting other command rest' hWorker progress
      rw [hReplaced]
      exact executing_replaced hMatches hSends progress hSteps
    · rw [hOther hTicket]
      exact h.delivered other
  · intro other hClosed
    apply step.replied
    exact h.closed other ((w.closed_sendReplace ticket other (some value)).symm.trans hClosed)
  · intro other hArm
    obtain ⟨⟨state, hIdle⟩, -⟩ := h.arm other hArm
    cases worker.symm.trans hIdle

/-- An arm keeps its sender while the worker stays where it is. -/
theorem Channels.armed (h : Channels history w) {l : Label} {t : System}
    (step : Step opening w.system l t) (hArm : w.arm = some ticket)
    (hWorker : t.worker = w.system.worker) :
    (∃ state, t.worker = .idle state) ∧ t.replies ticket ≠ none := by
  obtain ⟨⟨state, hIdle⟩, hReplied⟩ := h.arm ticket hArm
  exact ⟨⟨state, hWorker.trans hIdle⟩, step.replied hReplied⟩

/-- A sender is dropped whose command has its reply. -/
theorem Channels.close (h : Channels history w) {arm : Option Nat}
    (hReplied : w.system.replies ticket ≠ none) (hArm : ∀ other, arm = some other → w.arm = some other) :
    Channels (history ++ [.dropSender ticket]) { w.close ticket with arm } := by
  have h' : Channels (history ++ [.dropSender ticket]) w := h.silent fun _ => rfl
  refine ⟨?_, ?_, h'.untaken, h'.executing, h'.delivered, ?_, fun other hOther => ?_⟩
  · exact fun other => (Watching.close_value w ticket other).trans (h'.value other)
  · exact fun other => (Watching.close_version w ticket other).trans (h'.version other)
  · intro other hClosed
    by_cases hTicket : other = ticket
    · exact hTicket ▸ hReplied
    · exact h.closed other ((Watching.close_closed_of_ne w hTicket).symm.trans hClosed)
  · exact h.arm other (hArm other hOther)

/-- Receivers change nothing in the channels. -/
theorem Channels.receive (h : Channels history w) {receivers : List Receiver}
    (hLabel : ∀ ticket, l.written? ticket = none) :
    Channels (history ++ [l]) { w with receivers } := by
  have h' := h.silent hLabel
  exact ⟨h'.value, h'.version, h'.untaken, h'.executing, h'.delivered, h'.closed, h'.arm⟩

/-- The steps of the facade, and what its channels hold. -/
theorem channels_of_run (run : Run (WatchStep opening) .init₀ history w) :
    Run (Step opening) .init₀ (watchedLabels history) w.system ∧ Channels history w := by
  induction run with
  | refl => exact ⟨.refl, .init₀⟩
  | @snoc history w w' l run step ih =>
      obtain ⟨run, h⟩ := ih
      have hLabels : watchedLabels (history ++ [l]) = watchedLabels history ++ watchedLabels [l] :=
        List.filterMap_append
      have hSame : Run (Step opening) .init₀ (watchedLabels history ++ []) w.system := by
        rw [List.append_nil]
        exact run
      rw [hLabels]
      cases step with
      | facade step plain unused waits =>
          refine ⟨run.snoc step, h.facade run step ?_ fun ticket hArm => ?_⟩
          · rintro ticket command rest value hWorker hProgress rfl
            exact unused ticket command rest hWorker hProgress trivial
          · exact h.armed step hArm (waits (by simp [hArm]))
      | subscribe step progress =>
          refine ⟨run.snoc step, h.facade run step (by simp) fun ticket hArm => ?_⟩
          exact h.armed step hArm step.sends_worker
      | write worker progress step => exact ⟨run.snoc step, h.write run worker progress step⟩
      | reply worker progress step =>
          refine ⟨run.snoc step, h.facade run step (by simp) fun ticket hArm => ?_⟩
          obtain rfl := Option.some.inj hArm
          obtain ⟨⟨command, state, -, hIdle⟩, hReply⟩ := step.answered
          exact ⟨⟨state, hIdle⟩, by simp [hReply]⟩
      | dropSender arm => exact ⟨hSame, h.close (h.arm _ arm).2 nofun⟩
      | unwind worker progress step => exact absurd step (executing_cleanup run worker)
      | discard worker queued progress =>
          rw [terminated_queue run worker] at queued
          cases queued
      | clone => exact ⟨hSame, h.receive fun _ => rfl⟩
      | receive => exact ⟨hSame, h.receive fun _ => rfl⟩

/-! ### The receivers -/

/-- What one step of a receiver finds in its channel. -/
inductive Finds (w : Watching) (r : Receiver) : ProgressReceiver.Label → ProgressReceiver.State → Prop
  | newer {s : ProgressReceiver.State} (reader : r.reader = ProgressReceiver.recv)
      (version : (w.channels r.ticket).version ≠ r.seen) (seen : s.seen = (w.channels r.ticket).version)
      (next : s.reader = ProgressReceiver.peek) : Finds w r .changed s
  | nothing {s : ProgressReceiver.State} (reader : r.reader = ProgressReceiver.recv)
      (version : (w.channels r.ticket).version = r.seen) (closed : (w.channels r.ticket).closed = true)
      (seen : s.seen = r.seen) (next : s.reader = ProgressReceiver.recv) : Finds w r (.closed none) s
  | value {s : ProgressReceiver.State} (reader : r.reader = ProgressReceiver.peek)
      (seen : s.seen = r.seen) (next : s.reader = ProgressReceiver.recv) :
      Finds w r (.peek (w.channels r.ticket).value) s

theorem finds {r : Receiver} {l : ProgressReceiver.Label} {s : ProgressReceiver.State}
    (hReader : r.reader = ProgressReceiver.recv ∨ r.reader = ProgressReceiver.peek) (reads : Reads l)
    (step : ProgressReceiver.Step (w.view r) l s) : Finds w r l s := by
  cases step with
  | write => exact reads.elim
  | dropSender => exact reads.elim
  | changed h newer =>
      rcases hReader with hRecv | hPeek
      · cases hRecv.symm.trans h
        exact .newer hRecv newer rfl rfl
      · cases hPeek.symm.trans h
  | closed h same closed returned =>
      rcases hReader with hRecv | hPeek
      · cases hRecv.symm.trans h
        cases returned
        exact .nothing hRecv same closed rfl rfl
      · cases hPeek.symm.trans h
  | peek h returned =>
      rcases hReader with hRecv | hPeek
      · cases hRecv.symm.trans h
      · cases hPeek.symm.trans h
        cases returned
        exact .value hPeek rfl rfl

/-- Where a receiver is, with what it got. -/
structure Receiver.Reading (history : List WatchLabel) (i : Nat) (r : Receiver) : Prop where
  reader : r.reader = ProgressReceiver.recv ∨
    r.reader = ProgressReceiver.peek ∧ written r.ticket history ≠ []
  seen : r.seen ≤ (written r.ticket history).length
  received : ∀ value ∈ receivedBy i history, value ∈ written r.ticket history
  steps : ProgressReceiver.recv.Steps (ProgressReceiver.underway (reads i history)) r.reader

structure Receivers (history : List WatchLabel) (w : Watching) : Prop where
  reading : ∀ i (r : Receiver), w.receivers[i]? = some r → r.Reading history i
  ordered : ∀ i, (receivedBy i history).Pairwise (· ≤ ·)
  fresh : ∀ i, w.receivers.length ≤ i → reads i history = []

omit [Platform] in
theorem Progress.le_of_lt_or_eq {a b : Progress} (h : a = b ∨ a < b) : a ≤ b := by
  change a.percentComplete ≤ b.percentComplete
  rcases h with rfl | hLt
  · exact UInt8.le_refl _
  · exact UInt8.le_of_lt hLt

/-- What was written before the last value is below it. -/
theorem Channels.le_last (h : Channels history w) {value last : Progress}
    (hLast : (written ticket history).getLast? = some last) (hMem : value ∈ written ticket history) :
    value ≤ last := by
  obtain ⟨reports, hPrefix⟩ := h.delivered ticket
  have hSorted : (written ticket history).Pairwise (· < ·) :=
    deliveries_pairwise.sublist hPrefix.sublist
  obtain ⟨before, hSplit⟩ := List.getLast?_eq_some_iff.mp hLast
  rw [hSplit] at hSorted hMem
  apply Progress.le_of_lt_or_eq
  rcases List.mem_append.mp hMem with hMem | hMem
  · exact .inr ((List.pairwise_append.mp hSorted).2.2 value hMem last List.mem_cons_self)
  · exact .inl (List.mem_singleton.mp hMem)

/-- A receiver that gets nothing in a step. -/
theorem Receiver.Reading.later {r : Receiver} (h : r.Reading history i) (hLabel : l.read? i = none) :
    r.Reading (history ++ [l]) i := by
  have hWritten : written r.ticket history <+: written r.ticket (history ++ [l]) := by
    rw [written_snoc]
    exact List.prefix_append _ _
  refine ⟨h.reader.imp_right fun hPeek => ⟨hPeek.1, ?_⟩, h.seen.trans hWritten.length_le, ?_, ?_⟩
  · intro hNil
    rw [hNil, List.prefix_nil] at hWritten
    exact hPeek.2 hWritten
  · intro value hMem
    rw [receivedBy_quiet hLabel] at hMem
    exact hWritten.subset (h.received value hMem)
  · rw [reads_quiet hLabel]
    exact h.steps

/-- A step that gives no receiver a value, and may add one that got none. -/
theorem Receivers.quiet (h : Receivers history w) (hLabel : ∀ i, l.read? i = none)
    {added : List Receiver} (hReceivers : w'.receivers = w.receivers ++ added)
    (hAdded : ∀ r ∈ added, r.reader = ProgressReceiver.recv ∧ r.seen ≤ (written r.ticket history).length) :
    Receivers (history ++ [l]) w' := by
  refine ⟨fun i r hReceiver => ?_, fun i => ?_, fun i hLength => ?_⟩
  · rw [hReceivers] at hReceiver
    apply Receiver.Reading.later _ (hLabel i)
    by_cases hOld : i < w.receivers.length
    · rw [List.getElem?_append_left hOld] at hReceiver
      exact h.reading i r hReceiver
    · rw [List.getElem?_append_right (Nat.le_of_not_lt hOld)] at hReceiver
      obtain ⟨hReader, hSeen⟩ := hAdded r (List.mem_of_getElem? hReceiver)
      have hFresh := h.fresh i (Nat.le_of_not_lt hOld)
      refine ⟨.inl hReader, hSeen, ?_, ?_⟩
      · rw [receivedBy, hFresh]
        exact fun value hMem => absurd hMem List.not_mem_nil
      · rw [hReader, hFresh]
        exact .refl _
  · rw [receivedBy_quiet (hLabel i)]
    exact h.ordered i
  · rw [reads_quiet (hLabel i)]
    apply h.fresh i
    rw [hReceivers, List.length_append] at hLength
    omega

/-- One step of a receiver. -/
theorem Receivers.receive (h : Receivers history w) (channels : Channels history w) {r : Receiver}
    {l : ProgressReceiver.Label} {s : ProgressReceiver.State} (hReceiver : w.receivers[i]? = some r)
    (hReads : Reads l) (step : ProgressReceiver.Step (w.view r) l s) :
    Receivers (history ++ [.receive i r.ticket l])
      { w with receivers := w.receivers.set i { r with seen := s.seen, reader := s.reader } } := by
  have hReading := h.reading i r hReceiver
  have hFinds := finds (hReading.reader.imp_right And.left) hReads step
  have hOther {j : Nat} (hNe : j ≠ i) :
      (WatchLabel.receive i r.ticket l : WatchLabel).read? j = none := if_neg hNe.symm
  have hWritten : written r.ticket (history ++ [.receive i r.ticket l]) = written r.ticket history := by
    rw [written_snoc]
    exact List.append_nil _
  have hGot : ∀ value ∈ l.result?.join,
      (written r.ticket history).getLast? = some value := by
    cases hFinds with
    | value => exact fun value hMem => (channels.value r.ticket).symm.trans hMem
    | _ => exact fun value hMem => absurd hMem (Option.not_mem_none _)
  refine ⟨fun j r' hReceiver' => ?_, fun j => ?_, fun j hLength => ?_⟩
  · by_cases hIndex : j = i
    · subst hIndex
      rw [List.getElem?_set_self (List.getElem?_eq_some_iff.mp hReceiver).1] at hReceiver'
      obtain rfl := Option.some.inj hReceiver'
      refine ⟨?_, ?_, ?_, ?_⟩
      · dsimp only
        rw [hWritten]
        cases hFinds with
        | newer reader version seen next =>
            refine .inr ⟨next, fun hNil => ?_⟩
            have hSeen := hReading.seen
            rw [channels.version, hNil] at version
            rw [hNil] at hSeen
            exact version (Nat.le_zero.mp hSeen).symm
        | nothing reader version closed seen next => exact .inl next
        | value reader seen next => exact .inl next
      · dsimp only
        rw [hWritten]
        cases hFinds with
        | newer reader version seen next => rw [seen, channels.version]
        | nothing reader version closed seen next => exact seen ▸ hReading.seen
        | value reader seen next => exact seen ▸ hReading.seen
      · intro value hMem
        dsimp only at hMem ⊢
        rw [receivedBy_receive, List.mem_append] at hMem
        rw [hWritten]
        rcases hMem with hMem | hMem
        · exact hReading.received value hMem
        · exact List.mem_of_getLast? (hGot value (Option.mem_toList.mp hMem))
      · rw [reads_receive]
        exact (step.recv_steps hReading.steps).1
    · rw [List.getElem?_set_ne (Ne.symm hIndex)] at hReceiver'
      exact (h.reading j r' hReceiver').later (hOther hIndex)
  · by_cases hIndex : j = i
    · subst hIndex
      rw [receivedBy_receive, List.pairwise_append]
      refine ⟨h.ordered j, by cases l.result?.join <;> simp, ?_⟩
      intro value hMem last hLast
      exact channels.le_last (hGot last (Option.mem_toList.mp hLast)) (hReading.received value hMem)
    · rw [receivedBy_quiet (hOther hIndex)]
      exact h.ordered j
  · rw [List.length_set] at hLength
    have hIndex : j ≠ i := by
      rintro rfl
      obtain ⟨hLt, -⟩ := List.getElem?_eq_some_iff.mp hReceiver
      omega
    rw [reads_quiet (hOther hIndex)]
    exact h.fresh j hLength

theorem receivers_of_run (run : Run (WatchStep opening) .init₀ history w) : Receivers history w := by
  induction run with
  | refl => exact ⟨fun i r hReceiver => by simp [Watching.init₀] at hReceiver, fun _ => .nil, fun _ _ => rfl⟩
  | @snoc history w w' l run step ih =>
      obtain ⟨-, channels⟩ := channels_of_run run
      have hNone : ∀ r ∈ ([] : List Receiver), r.reader = ProgressReceiver.recv ∧
          r.seen ≤ (written r.ticket history).length := fun r hMem => absurd hMem List.not_mem_nil
      cases step with
      | facade => exact ih.quiet (fun _ => rfl) (List.append_nil _).symm hNone
      | subscribe =>
          refine ih.quiet (fun _ => rfl) rfl fun r hMem => ?_
          obtain rfl := List.mem_singleton.mp hMem
          exact ⟨rfl, Nat.zero_le _⟩
      | write | reply | dropSender | unwind | discard =>
          exact ih.quiet (fun _ => rfl) (List.append_nil _).symm hNone
      | clone hReceiver idle =>
          refine ih.quiet (fun _ => rfl) rfl fun r hMem => ?_
          obtain rfl := List.mem_singleton.mp hMem
          exact ⟨idle, (ih.reading _ _ hReceiver).seen⟩
      | receive hReceiver reads step => exact ih.receive channels hReceiver reads step

/-! ### The last value -/

/-- Where a receiver is that called `recv` when it had marked the version `seen`. -/
structure CaughtUp (later : List WatchLabel) (w : Watching) (i seen : Nat) (r : Receiver) : Prop where
  receiver : w.receivers[i]? = some r
  seen_le : seen ≤ r.seen
  /-- Between two calls it has got the value that its version has. -/
  last : r.reader = ProgressReceiver.recv → seen < r.seen → r.seen = (w.channels r.ticket).version →
    (receivedBy i later).getLast? = (w.channels r.ticket).value

theorem CaughtUp.step {r : Receiver} {later : List WatchLabel} {seen : Nat} (h : CaughtUp later w i seen r)
    (channels : Channels history w) (receivers : Receivers history w)
    (step : WatchStep opening w l w') :
    ∃ r', CaughtUp (later ++ [l]) w' i seen r' ∧ r'.ticket = r.ticket := by
  have hReading := receivers.reading i r h.receiver
  have hLength : i < w.receivers.length := (List.getElem?_eq_some_iff.mp h.receiver).1
  have hQuiet {l : WatchLabel} {w' : Watching} (hLabel : l.read? i = none)
      (hReceiver : w'.receivers[i]? = some r)
      (hChannel : r.seen = (w'.channels r.ticket).version → r.seen = (w.channels r.ticket).version ∧
        (w'.channels r.ticket).value = (w.channels r.ticket).value) :
      ∃ r', CaughtUp (later ++ [l]) w' i seen r' ∧ r'.ticket = r.ticket := by
    refine ⟨r, ⟨hReceiver, h.seen_le, fun hReader hSeen hVersion => ?_⟩, rfl⟩
    obtain ⟨hBefore, hValue⟩ := hChannel hVersion
    rw [receivedBy_quiet hLabel, hValue]
    exact h.last hReader hSeen hBefore
  cases step with
  | facade | reply => exact hQuiet rfl h.receiver fun hVersion => ⟨hVersion, rfl⟩
  | subscribe step =>
      exact hQuiet rfl ((List.getElem?_append_left hLength).trans h.receiver) fun hVersion => ⟨hVersion, rfl⟩
  | clone =>
      exact hQuiet rfl ((List.getElem?_append_left hLength).trans h.receiver) fun hVersion => ⟨hVersion, rfl⟩
  | @write ticket =>
      refine hQuiet rfl h.receiver fun hVersion => ?_
      dsimp only at hVersion ⊢
      by_cases hTicket : r.ticket = ticket
      · have hSeen := hReading.seen
        rw [← channels.version] at hSeen
        subst hTicket
        rw [Function.update_self, Watch.Channel.sendReplace] at hVersion
        exact absurd hVersion (Nat.ne_of_lt (Nat.lt_succ_of_le hSeen))
      · rw [Function.update_of_ne hTicket] at hVersion ⊢
        exact ⟨hVersion, rfl⟩
  | @dropSender ticket | @unwind ticket | @discard ticket =>
      exact hQuiet rfl h.receiver fun hVersion =>
        ⟨hVersion.trans (w.close_version ticket r.ticket), w.close_value ticket r.ticket⟩
  | @receive j r₂ l s hReceiver reads step =>
      by_cases hIndex : j = i
      · subst hIndex
        obtain rfl := Option.some.inj (hReceiver.symm.trans h.receiver)
        have hFinds := finds (hReading.reader.imp_right And.left) reads step
        refine ⟨_, ⟨List.getElem?_set_self hLength, ?_, ?_⟩, rfl⟩
        · have hSeen := hReading.seen
          rw [← channels.version] at hSeen
          have hBefore := h.seen_le
          cases hFinds with
          | newer reader version seen next => exact seen ▸ hBefore.trans hSeen
          | nothing reader version closed seen next => exact seen ▸ hBefore
          | value reader seen next => exact seen ▸ hBefore
        · intro hRecv hSeen hVersion
          rw [receivedBy_receive]
          cases hFinds with
          | newer reader version seen next => cases next.symm.trans hRecv
          | nothing reader version closed seen next =>
              rw [seen] at hSeen hVersion
              simpa [ProgressReceiver.Label.result?] using h.last reader hSeen hVersion
          | value reader seen next =>
              rcases hReading.reader with hIdle | ⟨-, hWritten⟩
              · cases reader.symm.trans hIdle
              · have hSome := List.getLast?_eq_some_getLast hWritten
                rw [← channels.value] at hSome
                simp [ProgressReceiver.Label.result?, hSome]
      · have hLabel : (WatchLabel.receive j r₂.ticket l : WatchLabel).read? i = none := if_neg hIndex
        exact hQuiet hLabel ((List.getElem?_set_ne hIndex).trans h.receiver) fun hVersion => ⟨hVersion, rfl⟩

theorem caughtUp_of_run {r : Receiver} {later : List WatchLabel}
    (before : Run (WatchStep opening) .init₀ history w) (hReceiver : w.receivers[i]? = some r)
    (run : Run (WatchStep opening) w later w') :
    ∃ r', CaughtUp later w' i r.seen r' ∧ r'.ticket = r.ticket := by
  induction run with
  | refl => exact ⟨r, ⟨hReceiver, Nat.le_refl _, fun _ hSeen => absurd hSeen (Nat.lt_irrefl _)⟩, rfl⟩
  | snoc run step ih =>
      obtain ⟨r', h, hTicket⟩ := ih
      have reached := before.trans run
      obtain ⟨r'', h', hTicket'⟩ := h.step (channels_of_run reached).2 (receivers_of_run reached) step
      exact ⟨r'', h', hTicket'.trans hTicket⟩

theorem answer_of_reply {history : List Label} {s : System} (run : Run (Step opening) .init₀ history s)
    (h : s.replies ticket ≠ none) : ∃ reply, .answer ticket reply ∈ history := by
  induction run with
  | refl => exact absurd rfl h
  | @snoc history t u l run step ih =>
      by_cases hBefore : t.replies ticket = none
      · rcases step.replies with hSame | ⟨ticket', command, reply, state, -, rfl, hUpdate⟩
        · exact absurd (hSame ▸ hBefore) h
        · by_cases hTicket : ticket = ticket'
          · subst hTicket
            exact ⟨reply, List.mem_append_right _ List.mem_cons_self⟩
          · rw [hUpdate, Function.update_of_ne hTicket] at h
            exact absurd hBefore h
      · obtain ⟨reply, hMem⟩ := ih hBefore
        exact ⟨reply, List.mem_append_left _ hMem⟩

/-- A `recv` that returns `None` has found its channel closed, and the version it had marked. -/
theorem recv_none {l : ProgressReceiver.Label} (run : Run (WatchStep opening) .init₀ history w)
    (step : WatchStep opening w (.receive i ticket l) w') (hNone : l.result? = some none) :
    ∃ r, w.receivers[i]? = some r ∧ r.ticket = ticket ∧ r.reader = ProgressReceiver.recv ∧
      (w.channels ticket).version = r.seen ∧ (w.channels ticket).closed = true := by
  obtain ⟨-, channels⟩ := channels_of_run run
  cases step with
  | @receive _ r _ s hReceiver reads step =>
      have hReading := (receivers_of_run run).reading i r hReceiver
      cases finds (hReading.reader.imp_right And.left) reads step with
      | newer reader version seen next => cases hNone
      | nothing reader version closed seen next => exact ⟨r, hReceiver, rfl, reader, version, closed⟩
      | value reader seen next =>
          rcases hReading.reader with hIdle | ⟨-, hWritten⟩
          · cases reader.symm.trans hIdle
          · have hSome := List.getLast?_eq_some_getLast hWritten
            rw [← channels.value] at hSome
            simp [ProgressReceiver.Label.result?, hSome] at hNone

end

/-- What the receivers of progress are told, whatever steps the client, the
worker and they take. -/
structure LastProgress (opening : Opening) : Prop where
  /-- What the worker writes for a command is what the closure delivers. -/
  delivered : ∀ history w, Run (WatchStep opening) .init₀ history w → ∀ ticket,
    ∃ reports, written ticket history <+: deliveries none reports
  /-- A receiver gets values that were written for its command. -/
  received : ∀ history w, Run (WatchStep opening) .init₀ history w →
    ∀ i (r : Receiver), w.receivers[i]? = some r →
      ∀ value ∈ receivedBy i history, value ∈ written r.ticket history
  ordered : ∀ history w, Run (WatchStep opening) .init₀ history w →
    ∀ i, (receivedBy i history).Pairwise (· ≤ ·)
  /-- A receiver that has marked a version, and then calls `recv` until it
  returns `None`, gets the last value written if there is one after that version. -/
  last : ∀ before w i (r : Receiver) later l w', Run (WatchStep opening) .init₀ before w →
    w.receivers[i]? = some r →
    Run (WatchStep opening) w (later ++ [.receive i r.ticket l]) w' → l.result? = some none →
    r.seen < (written r.ticket (before ++ later)).length →
      ∃ value, (receivedBy i later).getLast? = some value ∧
        (written r.ticket (before ++ later)).getLast? = some value
  /-- What a receiver gets is the result of the embedded `recv`, run on the
  operations of that receiver since it last returned. -/
  returned : ∀ first i ticket l second w result,
    Run (WatchStep opening) .init₀ (first ++ .receive i ticket l :: second) w →
    l.result? = some result → ∃ op,
      ProgressReceiver.recv.Exec (ProgressReceiver.underway (reads i first) ++ [op]) result ∧
        (op = ⟨.changed, false⟩ ∨ op = ⟨.borrow, (written ticket first).getLast?⟩)
  /-- `None` comes after the reply was sent. -/
  replied : ∀ first i ticket l second w,
    Run (WatchStep opening) .init₀ (first ++ .receive i ticket l :: second) w →
    l.result? = some none → ∃ reply, .facade (.answer ticket reply) ∈ first

/-- Coalescing loses no final progress. -/
theorem last_progress (opening : Opening) : LastProgress opening where
  delivered history w run := (channels_of_run run).2.delivered
  received history w run i r hReceiver := ((receivers_of_run run).reading i r hReceiver).received
  ordered history w run := (receivers_of_run run).ordered
  last before w i r later l w' reached hReceiver run hNone hSeen := by
    obtain ⟨u, during, final⟩ := run.of_append
    obtain ⟨_, step, -⟩ := final.of_cons
    have whole := reached.trans during
    obtain ⟨r', h, hTicket⟩ := caughtUp_of_run reached hReceiver during
    obtain ⟨r'', hReceiver', hTicket', hReader, hVersion, -⟩ := recv_none whole step hNone
    obtain rfl := Option.some.inj (hReceiver'.symm.trans h.receiver)
    obtain ⟨-, channels⟩ := channels_of_run whole
    rw [← hTicket'] at hVersion hSeen ⊢
    have hLast := h.last hReader (hVersion ▸ channels.version _ ▸ hSeen) hVersion.symm
    have hWritten : written r''.ticket (before ++ later) ≠ [] := by
      intro hNil
      rw [hNil] at hSeen
      exact absurd hSeen (Nat.not_lt_zero _)
    have hSome := List.getLast?_eq_some_getLast hWritten
    exact ⟨_, hLast.trans ((channels.value _).trans hSome), hSome⟩
  returned first i ticket l second w result run hResult := by
    obtain ⟨u, u', before, step, -⟩ := run.split
    cases step with
    | receive hReceiver reads step =>
        have hReading := (receivers_of_run before).reading i _ hReceiver
        rw [← (channels_of_run before).2.value]
        exact (step.recv_steps hReading.steps).2 result hResult
  replied first i ticket l second w run hNone := by
    obtain ⟨u, u', before, step, -⟩ := run.split
    obtain ⟨r, -, -, -, -, hClosed⟩ := recv_none before step hNone
    obtain ⟨run', channels⟩ := channels_of_run before
    obtain ⟨reply, hMem⟩ := answer_of_reply run' (channels.closed ticket hClosed)
    obtain ⟨label, hLabel, hFacade⟩ := List.mem_filterMap.mp hMem
    cases label <;> cases hFacade
    exact ⟨reply, hLabel⟩

end Tokio
end RestartManager
