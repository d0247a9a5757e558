import RestartManager.Tokio.Lives

/-! The outcomes that a facade shows: those of the replies that its futures
yield, and those that its handles keep. -/
namespace RestartManager

open Interaction Contract Program Transition

namespace Tokio

namespace Reply

/-- The shutdown outcome in what a future yields. -/
def shutdown? : Reply → Option OperationOutcome
  | .shutdown (.pending outcome) => some outcome
  | .recovery (.ok outcome) => some outcome.shutdown
  | .restart (.completed outcome) => some outcome.shutdown
  | _ => none

def recovery? : Reply → Option RecoveryOutcome
  | .recovery (.ok outcome) => some outcome
  | .restart (.completed outcome) => some outcome
  | _ => none

theorem shutdown?_of_recovery? {reply : Reply} {outcome : RecoveryOutcome}
    (h : reply.recovery? = some outcome) : reply.shutdown? = some outcome.shutdown := by
  unfold recovery? at h
  split at h <;> cases h <;> rfl

end Reply

namespace Handle

/-- What `RestartPending::shutdown_outcome` and `RecoveryCompletion::outcome` show. -/
def shutdown? : Handle → Option OperationOutcome
  | .pending outcome => some outcome
  | .completion outcome => some outcome.shutdown
  | _ => none

def recovery? : Handle → Option RecoveryOutcome
  | .completion outcome => some outcome
  | _ => none

theorem shutdown?_of_recovery? {handle : Handle} {outcome : RecoveryOutcome}
    (h : handle.recovery? = some outcome) : handle.shutdown? = some outcome.shutdown := by
  unfold recovery? at h
  split at h <;> cases h
  rfl

end Handle

variable [Platform]

def Label.yielded? : Label → Option Reply
  | .yield _ reply => some reply
  | _ => none

def yields (history : List Label) : List Reply := history.filterMap Label.yielded?

/-- The shutdown outcomes shown so far, and by the handle. -/
def shownShutdowns (history : List Label) (s : System) : List OperationOutcome :=
  (yields history).filterMap Reply.shutdown? ++ (s.client.handle?.bind Handle.shutdown?).toList

def shownRecoveries (history : List Label) (s : System) : List RecoveryOutcome :=
  (yields history).filterMap Reply.recovery? ++ (s.client.handle?.bind Handle.recovery?).toList

section

variable {history : List Label} {s t : System} {l : Label}

theorem yields_snoc : yields (history ++ [l]) = yields history ++ l.yielded?.toList :=
  filterMap_snoc _ _ _

/-! ### What a reply shows -/

/-- The reply shows what is recorded. -/
structure Reply.Records (entries : List Entry) (reply : Reply) : Prop where
  shutdown : ∀ outcome ∈ reply.shutdown?, shutdowns entries = [outcome]
  recovery : ∀ outcome ∈ reply.recovery?, RestartManager.Retained entries outcome

theorem Reply.Carries.records {entries : List Entry} {value : Value} {outputs : List Output}
    {output : Output} {reply : Reply} (h : reply.Carries value output)
    (hShown : Shown entries value outputs) (hMem : output ∈ outputs) : reply.Records entries := by
  have hTold := hShown.life.told
  have hSilent (hShutdown : reply.shutdown? = none) (hRecovery : reply.recovery? = none) :
      reply.Records entries := by
    constructor
    · rw [hShutdown]
      exact fun outcome hMem => absurd hMem (Option.not_mem_none _)
    · rw [hRecovery]
      exact fun outcome hMem => absurd hMem (Option.not_mem_none _)
  have hRetained {outcome : RecoveryOutcome} (hReply : reply.shutdown? = some outcome.shutdown)
      (hRecovery : reply.recovery? = some outcome) (h : RestartManager.Retained entries outcome) :
      reply.Records entries := by
    constructor
    · intro outcome' hMem
      rw [hReply] at hMem
      cases hMem
      exact h.shutdown
    · intro outcome' hMem
      rw [hRecovery] at hMem
      cases hMem
      exact h
  cases h with
  | @ended result =>
      cases result with
      | error error => exact hSilent rfl rfl
      | ok outcome => exact hRetained rfl rfl ((hShown.shows _ hMem).recovery outcome rfl).1
  | @pending pending outcome h =>
      constructor
      · intro outcome' hMem
        cases hMem
        exact hTold.of_pending h
      · exact fun outcome hMem => absurd hMem (Option.not_mem_none _)
  | completion => exact hRetained rfl rfl hTold.retained
  | completed => exact hRetained rfl rfl hTold.retained
  | _ => exact hSilent rfl rfl

/-- What is answered was recorded among the calls. -/
theorem Returned.records {ticket : Nat} {reply : Reply} (h : Returned .primary history ticket reply) :
    ∃ entries, events entries <+: calls history ∧ reply.Records entries ∧
      (.op .leaveStopped ∈ entries ↔ .leaveStopped ∈ ((sent history).map Prod.fst).take (ticket + 1)) := by
  obtain ⟨⟨trace, value, output, hPrefix, hBlocking, hCarries⟩, -⟩ := h
  obtain ⟨entries, outputs, hShown, rfl, hOps, hLast⟩ := hBlocking.shown
  exact ⟨entries, hPrefix, hCarries.records hShown (hLast output rfl), hOps _ (by intro h; cases h)⟩

/-- What is answered to a method that borrows its handle shows no recovery. -/
theorem Returned.borrowed {ticket : Nat} {reply : Reply} {handle : Handle} {op : Op}
    {command : Command} (h : Returned .primary history ticket reply)
    (hSent : (sent history)[ticket]? = some (op, command)) (hMethod : handle.borrowed op = some command) :
    reply.recovery? = none := by
  obtain ⟨⟨trace, value, output, -, hBlocking, hCarries⟩, -⟩ := h
  have hTake : ((sent history).map Prod.fst).take (ticket + 1) =
      ((sent history).map Prod.fst).take ticket ++ [op] := by
    rw [List.take_add_one, List.getElem?_map, hSent]
    rfl
  rw [hTake] at hBlocking
  generalize hOps : ((sent history).map Prod.fst).take ticket ++ [op] = ops at hBlocking
  generalize hOutput : some output = last at hBlocking
  cases hBlocking with
  | opened run => cases hOutput
  | retry before method run => cases hOutput
  | perform before method run =>
      cases hOutput
      obtain ⟨-, hOp⟩ := List.append_inj' hOps rfl
      obtain rfl := (List.cons.inj hOp).1
      obtain ⟨entries, outputs, hShown, -⟩ := before.shown
      have hBorrowed : output.Borrowed := by
        have performed := performed_of_exec hShown.life.fits.2 method run
        cases performed with
        | borrowed stays calls returned => exact returned
        | shutdown plain => rcases plain with rfl | ⟨rfl, -⟩ <;> cases handle <;> cases hMethod
        | _ => cases handle <;> cases hMethod
      cases hCarries <;> first | rfl | exact hBorrowed.elim

/-! ### The handle of a start -/

/-- The handle that a start returns shows no outcome. -/
structure Started (s : System) : Prop where
  opening : ∀ rest, s.worker = .opening rest → Returns (fun result =>
    ∀ state handle, result = .ok (state, handle) → handle.shutdown? = none) rest
  opened : ∀ state handle, s.worker = .opened state handle → handle.shutdown? = none
  init : ∀ handle, s.init = some (.ok handle) → handle.shutdown? = none

theorem returns_start : Returns (fun result =>
    ∀ state handle, result = .ok (state, handle) → handle.shutdown? = none)
    Opening.primary.start := by
  apply (returns_any _).bind
  intro result _ state handle hResult
  cases result with
  | error error => cases hResult
  | ok session =>
      cases hResult
      rfl

theorem Started.step (h : Started s) (step : Step .primary s l t) : Started t := by
  have hElsewhere {worker : WorkerPhase} (hOpening : ∀ rest, worker ≠ .opening rest)
      (hOpened : ∀ state handle, worker ≠ .opened state handle) :
      Started { s with worker := worker } :=
    ⟨fun rest hRest => absurd hRest (hOpening rest),
      fun state handle hState => absurd hState (hOpened state handle), h.init⟩
  cases step
  case spawn =>
    refine ⟨?_, fun state handle hWorker => (by cases hWorker), h.init⟩
    rintro rest ⟨⟩
    exact returns_start
  case openCall c next response hWorker =>
    refine ⟨?_, fun state handle hWorker => (by cases hWorker), h.init⟩
    rintro rest ⟨⟩
    exact (h.opening _ hWorker).2 response trivial
  case openFailed hWorker =>
    exact ⟨fun rest hRest => (by cases hRest), fun state handle hState => (by cases hState),
      fun handle hInit => (by cases hInit)⟩
  case openDone hWorker =>
    refine ⟨fun rest hRest => (by cases hRest), ?_, h.init⟩
    rintro state handle ⟨⟩
    exact h.opening _ hWorker _ _ rfl
  case initSent hWorker alive =>
    refine ⟨fun rest hRest => (by cases hRest), fun state handle hState => (by cases hState), ?_⟩
    rintro handle ⟨⟩
    exact h.opened _ _ hWorker
  case initUnsent => exact hElsewhere (by simp) (by simp)
  case take => exact ⟨by simp, by simp, h.init⟩
  case executeCall => exact hElsewhere (by simp) (by simp)
  case answer => exact ⟨by simp, by simp, h.init⟩
  case unwind => exact hElsewhere (by simp) (by simp)
  case disconnect => exact hElsewhere (by simp) (by simp)
  case dropCall => exact hElsewhere (by simp) (by simp)
  case terminate => exact hElsewhere (by simp) (by simp)
  all_goals exact ⟨h.opening, h.opened, h.init⟩

theorem Started.of_run (run : Run (Step .primary) .init₀ history s) : Started s := by
  induction run with
  | refl => exact ⟨by simp [System.init₀], by simp [System.init₀], by simp [System.init₀]⟩
  | snoc run step ih => exact ih.step step

/-! ### What the client keeps -/

/-- The shutdown outcome that the client keeps, also inside a future. -/
def Client.shutdown? : Client → Option OperationOutcome
  | .holding handle => handle.shutdown?
  | .borrowing handle _ => handle.shutdown?
  | .awaiting (.restartWithProgress outcome) _ => some outcome
  | _ => none

def Client.recovery? : Client → Option RecoveryOutcome
  | .holding handle => handle.recovery?
  | .borrowing handle _ => handle.recovery?
  | _ => none

/-- A future keeps what its handle kept, or nothing. -/
theorem consumed_keeps {handle : Handle} {op : Op} {command : Command} {future : Future}
    {ticket : Nat} (h : handle.consumed op = some (command, future)) :
    (Client.awaiting future ticket).shutdown? = none ∨
      (Client.awaiting future ticket).shutdown? = handle.shutdown? := by
  unfold Handle.consumed at h
  split at h <;> cases h <;> first | exact .inl rfl | exact .inr rfl

/-- The next handle keeps what its future kept, or what is in the reply. -/
theorem resolved_keeps (future : Future) (reply : Reply) (ticket : Nat) :
    ((((future.handle reply).map .holding).getD .gone : Client).shutdown? = none ∨
      (((future.handle reply).map .holding).getD .gone : Client).shutdown? =
        (Client.awaiting future ticket).shutdown? ∨
      (((future.handle reply).map .holding).getD .gone : Client).shutdown? = reply.shutdown?) ∧
    ((((future.handle reply).map .holding).getD .gone : Client).recovery? = none ∨
      (((future.handle reply).map .holding).getD .gone : Client).recovery? = reply.recovery?) := by
  unfold Future.handle
  split
  case h_1 => exact ⟨.inr (.inr rfl), .inl rfl⟩
  case h_2 => exact ⟨.inl rfl, .inl rfl⟩
  case h_3 => exact ⟨.inr (.inr rfl), .inr rfl⟩
  case h_4 => exact ⟨.inr (.inr rfl), .inr rfl⟩
  case h_5 => exact ⟨.inr (.inl rfl), .inl rfl⟩
  case h_6 => exact ⟨.inr (.inr rfl), .inr rfl⟩
  case h_7 => exact ⟨.inl rfl, .inl rfl⟩

/-- What the client keeps was kept before or is in the reply that it takes. -/
theorem Step.keeps (hStarted : Started s) (step : Step .primary s l t) :
    (t.client.shutdown? = none ∨ t.client.shutdown? = s.client.shutdown? ∨
      ∃ reply, l.yielded? = some reply ∧ t.client.shutdown? = reply.shutdown?) ∧
    (t.client.recovery? = none ∨ t.client.recovery? = s.client.recovery? ∨
      ∃ reply, l.yielded? = some reply ∧ t.client.recovery? = reply.recovery?) := by
  cases step
  case openedHandle handle hClient received =>
    have hNone : handle.shutdown? = none := hStarted.init handle received
    refine ⟨.inl hNone, .inl ?_⟩
    cases hRecovery : handle.recovery? with
    | none => exact hRecovery
    | some outcome =>
        rw [Handle.shutdown?_of_recovery? hRecovery] at hNone
        cases hNone
  case borrow hClient method alive => rw [hClient]; exact ⟨.inr (.inl rfl), .inr (.inl rfl)⟩
  case borrowReply hClient received => rw [hClient]; exact ⟨.inr (.inl rfl), .inr (.inl rfl)⟩
  case borrowLost hClient empty terminated =>
    rw [hClient]; exact ⟨.inr (.inl rfl), .inr (.inl rfl)⟩
  case borrowDropped hClient => rw [hClient]; exact ⟨.inr (.inl rfl), .inr (.inl rfl)⟩
  case consume handle op command future hClient method alive =>
    rw [hClient]
    rcases consumed_keeps method with hNone | hSame
    · exact ⟨.inl hNone, .inl rfl⟩
    · exact ⟨.inr (.inl hSame), .inl rfl⟩
  case consumeReply future ticket reply hClient received =>
    rw [hClient]
    obtain ⟨hShutdown, hRecovery⟩ := resolved_keeps future reply ticket
    constructor
    · rcases hShutdown with hNone | hSame | hReply
      · exact .inl hNone
      · exact .inr (.inl hSame)
      · exact .inr (.inr ⟨reply, rfl, hReply⟩)
    · rcases hRecovery with hNone | hReply
      · exact .inl hNone
      · exact .inr (.inr ⟨reply, rfl, hReply⟩)
  case cancelCall => exact ⟨.inl rfl, .inl rfl⟩
  case spawn => exact ⟨.inl rfl, .inl rfl⟩
  case spawnFailed => exact ⟨.inl rfl, .inl rfl⟩
  case openedError => exact ⟨.inl rfl, .inl rfl⟩
  case openedNothing => exact ⟨.inl rfl, .inl rfl⟩
  case consumeFailed => exact ⟨.inl rfl, .inl rfl⟩
  case consumeLost => exact ⟨.inl rfl, .inl rfl⟩
  case cancel => exact ⟨.inl rfl, .inl rfl⟩
  case abandon => exact ⟨.inl rfl, .inl rfl⟩
  all_goals exact ⟨.inr (.inl rfl), .inr (.inl rfl)⟩

/-- The outcomes that the client keeps were in replies to it. -/
theorem kept_of_run (run : Run (Step .primary) .init₀ history s) :
    (∀ outcome ∈ s.client.shutdown?, outcome ∈ (yields history).filterMap Reply.shutdown?) ∧
    ∀ outcome ∈ s.client.recovery?, outcome ∈ (yields history).filterMap Reply.recovery? := by
  induction run with
  | refl => simp [System.init₀, Client.shutdown?, Client.recovery?]
  | snoc run step ih =>
      obtain ⟨hShutdown, hRecovery⟩ := step.keeps (.of_run run)
      rw [yields_snoc, List.filterMap_append, List.filterMap_append]
      constructor
      · intro outcome hMem
        rcases hShutdown with hNone | hSame | ⟨reply, hReply, hShown⟩
        · simp [hNone] at hMem
        · exact List.mem_append_left _ (ih.1 outcome (hSame ▸ hMem))
        · rw [hReply]
          exact List.mem_append_right _ (List.mem_filterMap.mpr
            ⟨reply, List.mem_singleton_self _, hShown ▸ hMem⟩)
      · intro outcome hMem
        rcases hRecovery with hNone | hSame | ⟨reply, hReply, hShown⟩
        · simp [hNone] at hMem
        · exact List.mem_append_left _ (ih.2 outcome (hSame ▸ hMem))
        · rw [hReply]
          exact List.mem_append_right _ (List.mem_filterMap.mpr
            ⟨reply, List.mem_singleton_self _, hShown ▸ hMem⟩)

/-! ### The end of a recovery -/

/-- The client owns a completed recovery, or what follows it. -/
def Client.Completed : Client → Prop
  | .holding handle => handle.recovery?.isSome
  | .borrowing handle _ => handle.recovery?.isSome
  | .awaiting future _ => future = .endSession
  | .gone => True
  | _ => False

/-- A completed recovery is not left stopped any more. -/
theorem Step.completed (h : s.client.Completed) (step : Step .primary s l t) :
    t.client.Completed ∧ ∀ op command, l.sent? = some (op, command) → op ≠ .leaveStopped := by
  have hSilent {client : Client} {l : Label} (h : client.Completed) (hSent : l.sent? = none) :
      client.Completed ∧ ∀ op command, l.sent? = some (op, command) → op ≠ .leaveStopped := by
    rw [hSent]
    exact ⟨h, fun op command hSome => absurd hSome.symm (Option.some_ne_none _)⟩
  cases step
  case borrow handle op command hClient method alive =>
    rw [hClient] at h
    refine ⟨h, ?_⟩
    rintro op' command' ⟨⟩ rfl
    cases handle <;> cases method
  case consume handle op command future hClient method alive =>
    rw [hClient] at h
    cases handle <;> cases h
    cases op <;> cases method
    refine ⟨rfl, ?_⟩
    rintro op' command' ⟨⟩
    exact Op.noConfusion
  case consumeReply future ticket reply hClient received =>
    rw [hClient] at h
    obtain rfl : future = .endSession := h
    exact hSilent trivial rfl
  case borrowReply hClient received => rw [hClient] at h; exact hSilent h rfl
  case borrowLost hClient empty terminated => rw [hClient] at h; exact hSilent h rfl
  case borrowDropped hClient => rw [hClient] at h; exact hSilent h rfl
  case spawn hClient => rw [hClient] at h; exact h.elim
  case openedHandle hClient received => rw [hClient] at h; exact h.elim
  case cancel hClient => rw [hClient] at h; cases h
  case cancelCall hClient => rw [hClient] at h; exact h.elim
  case spawnFailed => exact hSilent trivial rfl
  case openedError => exact hSilent trivial rfl
  case openedNothing => exact hSilent trivial rfl
  case consumeFailed => exact hSilent trivial rfl
  case consumeLost => exact hSilent trivial rfl
  case abandon => exact hSilent trivial rfl
  all_goals exact hSilent h rfl

/-- A future borrows its handle when its command is sent. -/
theorem Step.borrows {handle : Handle} {ticket : Nat} (step : Step .primary s l t)
    (h : t.client = .borrowing handle ticket) :
    s.client = .borrowing handle ticket ∨
      ∃ op command, l.sent? = some (op, command) ∧ ticket = s.sent ∧
        handle.borrowed op = some command := by
  cases step
  case borrow hClient method alive =>
    cases h
    exact .inr ⟨_, _, rfl, rfl, method⟩
  case consumeReply future ticket reply hClient received =>
    dsimp only at h
    cases hHandle : future.handle reply <;> rw [hHandle] at h <;> cases h
  all_goals first | exact .inl h | cases h

/-- A future yields a reply that was received. -/
theorem Step.yields {reply : Reply} (step : Step .primary s l t) (h : l.yielded? = some reply) :
    ∃ ticket, s.replies ticket = some reply ∧ l.sent? = none ∧
      ((∃ handle, s.client = .borrowing handle ticket) ∨
        ∃ future, s.client = .awaiting future ticket ∧
          t.client = ((future.handle reply).map .holding).getD .gone) := by
  cases step
  case borrowReply hClient received =>
    cases h
    exact ⟨_, received, rfl, .inl ⟨_, hClient⟩⟩
  case consumeReply hClient received =>
    cases h
    exact ⟨_, received, rfl, .inr ⟨_, hClient, rfl⟩⟩
  all_goals cases h

theorem resolved_completed (future : Future) {reply : Reply} {outcome : RecoveryOutcome}
    (h : reply.recovery? = some outcome) :
    (((future.handle reply).map .holding).getD .gone : Client).Completed := by
  unfold Future.handle
  split <;> first | rfl | trivial

theorem sent_count (run : Run (Step .primary) .init₀ history s) : s.sent = (sent history).length := by
  obtain ⟨done, flight, h⟩ := Pipeline.of_run run
  rw [h.count_eq, h.sent_eq, List.length_append]

/-- The handle that a future borrows sent its command. -/
theorem borrowed_sent (run : Run (Step .primary) .init₀ history s) {handle : Handle} {ticket : Nat}
    (h : s.client = .borrowing handle ticket) :
    ∃ op command, (sent history)[ticket]? = some (op, command) ∧
      handle.borrowed op = some command := by
  induction run with
  | refl => cases h
  | @snoc history t u l run step ih =>
      rw [sent_snoc]
      rcases step.borrows h with hBefore | ⟨op, command, hSent, rfl, hMethod⟩
      · obtain ⟨op, command, hSent, hMethod⟩ := ih hBefore
        refine ⟨op, command, ?_, hMethod⟩
        rw [List.getElem?_append_left (List.getElem?_eq_some_iff.mp hSent).1]
        exact hSent
      · rw [hSent, sent_count run]
        exact ⟨op, command, List.getElem?_concat_length, hMethod⟩

/-- A recovery that was shown is complete, and was left stopped if it says so. -/
theorem recovered_of_run (run : Run (Step .primary) .init₀ history s) :
    ∀ outcome ∈ (yields history).filterMap Reply.recovery?, s.client.Completed ∧
      (outcome.restart = none ↔ .leaveStopped ∈ (sent history).map Prod.fst) := by
  induction run with
  | refl => exact fun outcome hMem => absurd hMem List.not_mem_nil
  | @snoc history t u l run step ih =>
      intro outcome hMem
      rw [yields_snoc, List.filterMap_append, List.mem_append] at hMem
      rw [sent_snoc, List.map_append, List.mem_append]
      rcases hMem with hMem | hMem
      · obtain ⟨hCompleted, hLeft⟩ := ih outcome hMem
        obtain ⟨hAfter, hSent⟩ := step.completed hCompleted
        refine ⟨hAfter, hLeft.trans (or_iff_left ?_).symm⟩
        cases hLabel : l.sent? with
        | none => exact List.not_mem_nil
        | some pair => simpa using (hSent pair.1 pair.2 hLabel).symm
      · obtain ⟨reply, hReply, hRecovery⟩ := List.mem_filterMap.mp hMem
        obtain ⟨ticket, received, hSent, hClient⟩ := step.yields (Option.mem_toList.mp hReply)
        have hReturned := (Returned.of_run run received).1
        rcases hClient with ⟨handle, hClient⟩ | ⟨future, hClient, hNext⟩
        · obtain ⟨op, command, hCommand, hMethod⟩ := borrowed_sent run hClient
          rw [hReturned.borrowed hCommand hMethod] at hRecovery
          cases hRecovery
        · obtain ⟨done, flight, h⟩ := Pipeline.of_run run
          have hAll : ((sent history).map Prod.fst).take (ticket + 1) = (sent history).map Prod.fst := by
            rw [h.coupled.2 future ticket hClient, sent_count run]
            exact List.take_of_length_le (List.length_map _).le
          obtain ⟨entries, -, hRecords, hLeft⟩ := hReturned.records
          rw [hNext, hSent]
          refine ⟨resolved_completed future hRecovery, ?_⟩
          rw [(hRecords.recovery outcome hRecovery).left, hLeft, hAll]
          simp

/-! ### What the facade shows -/

/-- Everything that is shown was in a reply. -/
theorem shown_yielded (run : Run (Step .primary) .init₀ history s) :
    (∀ outcome ∈ shownShutdowns history s, outcome ∈ (yields history).filterMap Reply.shutdown?) ∧
    ∀ outcome ∈ shownRecoveries history s, outcome ∈ (yields history).filterMap Reply.recovery? := by
  obtain ⟨hShutdown, hRecovery⟩ := kept_of_run run
  constructor
  · intro outcome hMem
    rcases List.mem_append.mp hMem with hMem | hMem
    · exact hMem
    · obtain ⟨handle, hHandle, hShown⟩ := Option.bind_eq_some_iff.mp (Option.mem_toList.mp hMem)
      apply hShutdown
      rcases Client.handle?_eq_some hHandle with hClient | ⟨ticket, hClient⟩
      · rw [hClient]
        exact hShown
      · rw [hClient]
        exact hShown
  · intro outcome hMem
    rcases List.mem_append.mp hMem with hMem | hMem
    · exact hMem
    · obtain ⟨handle, hHandle, hShown⟩ := Option.bind_eq_some_iff.mp (Option.mem_toList.mp hMem)
      apply hRecovery
      rcases Client.handle?_eq_some hHandle with hClient | ⟨ticket, hClient⟩
      · rw [hClient]
        exact hShown
      · rw [hClient]
        exact hShown

theorem yielded_records (run : Run (Step .primary) .init₀ history s) {reply : Reply}
    (h : reply ∈ yields history) :
    ∃ entries, events entries <+: calls history ∧ reply.Records entries := by
  obtain ⟨l, hMem, hLabel⟩ := List.mem_filterMap.mp h
  obtain ⟨first, second, rfl⟩ := List.append_of_mem hMem
  cases l <;> cases hLabel
  obtain ⟨entries, hPrefix, hRecords, -⟩ := (yield_returned run).records
  refine ⟨entries, hPrefix.trans ?_, hRecords⟩
  rw [calls, calls, List.filterMap_append]
  exact List.prefix_append _ _

/-- What is recorded of the first calls is recorded of all of them. -/
theorem recorded_of_first {trace later : Trace} {f : Entry → Option OperationOutcome}
    {outcome : OperationOutcome} (hPrefix : trace <+: later)
    (hOnce : ((later.map Entry.call).filterMap f).length ≤ 1)
    (h : (trace.map Entry.call).filterMap f = [outcome]) :
    (later.map Entry.call).filterMap f = [outcome] := by
  obtain ⟨rest, rfl⟩ := hPrefix
  rw [List.map_append, List.filterMap_append, h] at hOnce ⊢
  rw [List.length_append, List.length_singleton] at hOnce
  have hNone : ((rest.map Entry.call).filterMap f).length = 0 := by omega
  rw [List.length_eq_zero_iff.mp hNone, List.append_nil]

/-- Every facade shows the outcomes of its own native calls. -/
theorem retainedOutcomes (run : Run (Step .primary) .init₀ history s) :
    RetainedOutcomes (calls history) (.leaveStopped ∈ (sent history).map Prod.fst)
      (shownShutdowns history s) (shownRecoveries history s) := by
  obtain ⟨hShutdowns, hRecoveries⟩ := shown_yielded run
  obtain ⟨entries, hObserved, hCalls, hCalm⟩ := observed_of_run run
  have hShutdownOnce : (shutdowns ((calls history).map .call)).length ≤ 1 := by
    rw [← hCalls, shutdowns_events]
    exact (issuesOnce_iff shutdown?_eq_none).mp (RecoveryObligation.of_admits hObserved.admits).shutdown_once
  have hRestartOnce : (restarts ((calls history).map .call)).length ≤ 1 := by
    rw [← hCalls, restarts_events]
    exact restartedOnce_iff.mp (hObserved.restartedOnce hCalm)
  have hShutdown : ∀ outcome ∈ shownShutdowns history s,
      shutdowns ((calls history).map .call) = [outcome] := by
    intro outcome hMem
    obtain ⟨reply, hReply, hShown⟩ := List.mem_filterMap.mp (hShutdowns outcome hMem)
    obtain ⟨entries, hPrefix, hRecords⟩ := yielded_records run hReply
    exact recorded_of_first hPrefix hShutdownOnce
      (shutdowns_events.trans (hRecords.shutdown outcome hShown))
  constructor
  · intro outcome hMem outcome' hMem'
    have hSame := (hShutdown outcome hMem).symm.trans (hShutdown outcome' hMem')
    exact (List.cons.inj hSame).1
  · exact fun outcome hMem => shutdownTold (hShutdown outcome hMem)
  · intro outcome hMem
    rcases List.mem_append.mp hMem with hMem | hMem
    · obtain ⟨reply, hReply, hShown⟩ := List.mem_filterMap.mp hMem
      exact List.mem_append_left _ (List.mem_filterMap.mpr
        ⟨reply, hReply, Reply.shutdown?_of_recovery? hShown⟩)
    · obtain ⟨handle, hHandle, hShown⟩ := Option.bind_eq_some_iff.mp (Option.mem_toList.mp hMem)
      exact List.mem_append_right _ (Option.mem_toList.mpr (Option.bind_eq_some_iff.mpr
        ⟨handle, hHandle, Handle.shutdown?_of_recovery? hShown⟩))
  · exact fun outcome hMem => (recovered_of_run run outcome (hRecoveries outcome hMem)).2
  · intro outcome hMem restart hRestart
    obtain ⟨reply, hReply, hShown⟩ := List.mem_filterMap.mp (hRecoveries outcome hMem)
    obtain ⟨entries, hPrefix, hRecords⟩ := yielded_records run hReply
    have hRestarts := (hRecords.recovery outcome hShown).restart
    rw [Option.mem_def.mp hRestart] at hRestarts
    exact restartTold (recorded_of_first hPrefix hRestartOnce (restarts_events.trans hRestarts))

end

end Tokio

/-- The outcomes that a primary session shows, blocking or through the facade,
are those of its native calls to the end. -/
theorem retained_outcomes [Platform] :
    (∀ history value outputs, Shown history value outputs →
      RetainedOutcomes (events history) (.op .leaveStopped ∈ history)
        (outputs.filterMap Output.shutdown?) (outputs.filterMap Output.recovery?)) ∧
    ∀ history s, Run (Tokio.Step .primary) .init₀ history s →
      RetainedOutcomes (Tokio.calls history)
        (.leaveStopped ∈ (Tokio.sent history).map Prod.fst)
        (Tokio.shownShutdowns history s) (Tokio.shownRecoveries history s) :=
  ⟨fun _ _ _ => Shown.outcomes, fun _ _ => Tokio.retainedOutcomes⟩

end RestartManager
