import RestartManager.Session.Transcripts
import RestartManager.Tokio.Abandonment
import RestartManager.Tokio.Executions
import RestartManager.Tokio.Progress
import RestartManager.Tokio.Refused

/-! The facade with the progress of its operations: each command with progress
has a watch channel that the worker writes, and any number of clones of its
receiver read it while the client, the worker and the readers take turns. -/
namespace RestartManager

open Interaction Program Transition

namespace Tokio

/-- The command carries the sender of a watch channel. -/
def Command.HasProgress : Command → Prop
  | .shutdownWithProgress _ | .restartWithProgress => True
  | _ => False

/-- A progress receiver of one command, with the version it has marked and what
is left of the `recv` that it is in. -/
structure Receiver where
  ticket : Nat
  seen : Nat
  reader : Watch.Reader (Option Progress) (Option Progress)

/-- The receiver that a method returns beside its future. -/
def Receiver.new (ticket : Nat) : Receiver := { ticket, seen := 0, reader := ProgressReceiver.recv }

/-- The steps that a receiver takes. -/
def Reads : ProgressReceiver.Label → Prop
  | .write _ | .dropSender => False
  | _ => True

variable [Platform]

/-- `arm` is the command whose arm has sent its reply, and still has its sender. -/
structure Watching where
  system : System
  channels : Nat → Watch.Channel (Option Progress)
  receivers : List Receiver
  arm : Option Nat

namespace Watching

def init₀ : Watching where
  system := .init₀
  channels _ := ⟨none, 0, false⟩
  receivers := []
  arm := none

/-- What a receiver finds in its channel. -/
def view (w : Watching) (r : Receiver) : ProgressReceiver.State where
  channel := w.channels r.ticket
  seen := r.seen
  reader := r.reader

/-- The sender of a command is dropped. -/
def close (w : Watching) (ticket : Nat) : Watching :=
  { w with channels := Function.update w.channels ticket { w.channels ticket with closed := true } }

@[simp] theorem close_value (w : Watching) (ticket other : Nat) :
    ((w.close ticket).channels other).value = (w.channels other).value := by
  by_cases h : other = ticket
  · simp [close, h]
  · simp [close, Function.update_of_ne h]

@[simp] theorem close_version (w : Watching) (ticket other : Nat) :
    ((w.close ticket).channels other).version = (w.channels other).version := by
  by_cases h : other = ticket
  · simp [close, h]
  · simp [close, Function.update_of_ne h]

@[simp] theorem close_closed (w : Watching) (ticket : Nat) :
    ((w.close ticket).channels ticket).closed = true := by
  simp [close]

theorem close_closed_of_closed (w : Watching) {ticket other : Nat} (h : (w.channels other).closed = true) :
    ((w.close ticket).channels other).closed = true := by
  by_cases hTicket : other = ticket
  · simp [hTicket]
  · simp [close, Function.update_of_ne hTicket, h]

theorem close_closed_of_ne (w : Watching) {ticket other : Nat} (h : other ≠ ticket) :
    ((w.close ticket).channels other).closed = (w.channels other).closed := by
  simp [close, Function.update_of_ne h]

/-- A write closes no channel. -/
theorem closed_sendReplace (w : Watching) (ticket other : Nat) (value : Option Progress) :
    (Function.update w.channels ticket ((w.channels ticket).sendReplace value) other).closed =
      (w.channels other).closed := by
  by_cases h : other = ticket
  · simp [h, Watch.Channel.sendReplace]
  · rw [Function.update_of_ne h]

end Watching

inductive WatchLabel
  | facade (l : Label)
  | write (ticket : Nat) (value : Progress)
  | dropSender (ticket : Nat)
  | clone (i : Nat)
  | receive (i ticket : Nat) (l : ProgressReceiver.Label)

namespace WatchLabel

def facade? : WatchLabel → Option Label
  | .facade l => some l
  | .write _ value => some (.call ⟨.sendReplace value, ()⟩)
  | _ => none

def written? (ticket : Nat) : WatchLabel → Option Progress
  | .write other value => if other = ticket then some value else none
  | _ => none

def read? (i : Nat) : WatchLabel → Option ProgressReceiver.Label
  | .receive j _ l => if j = i then some l else none
  | _ => none

end WatchLabel

/-- What the arm of a command with progress does while it has the sender. -/
def Label.UsesSender : Label → Prop
  | .call ⟨.sendReplace _, _⟩ | .answer .. | .cleanup => True
  | _ => False

/-- One step of the facade, of the sender of a watch channel, or of a receiver.
The sender is borrowed by the closure until the operation returns, and dropped
at the end of the arm, after the reply was sent. Only then does the worker go
on. A worker that unwinds drops the sender on its way, and at last those of
the commands that it did not take. -/
inductive WatchStep (opening : Opening) : Watching → WatchLabel → Watching → Prop
  | facade {w : Watching} {l : Label} {t : System} (step : Step opening w.system l t)
      (plain : ∀ op command, l = .send op command → ¬command.HasProgress)
      (unused : ∀ ticket command rest, w.system.worker = .executing ticket command rest →
        command.HasProgress → ¬l.UsesSender)
      (waits : w.arm ≠ none → t.worker = w.system.worker) :
      WatchStep opening w (.facade l) { w with system := t }
  | subscribe {w : Watching} {op : Op} {command : Command} {t : System}
      (step : Step opening w.system (.send op command) t) (progress : command.HasProgress) :
      WatchStep opening w (.facade (.send op command))
        { w with system := t, receivers := w.receivers ++ [.new w.system.sent] }
  | write {w : Watching} {ticket : Nat} {command : Command}
      {rest : Native (Except Payload Reply × WorkerState)} {value : Progress} {t : System}
      (worker : w.system.worker = .executing ticket command rest) (progress : command.HasProgress)
      (step : Step opening w.system (.call ⟨.sendReplace value, ()⟩) t) :
      WatchStep opening w (.write ticket value) { w with
        system := t
        channels := Function.update w.channels ticket ((w.channels ticket).sendReplace (some value)) }
  | reply {w : Watching} {ticket : Nat} {command : Command}
      {rest : Native (Except Payload Reply × WorkerState)} {reply : Reply} {t : System}
      (worker : w.system.worker = .executing ticket command rest) (progress : command.HasProgress)
      (step : Step opening w.system (.answer ticket reply) t) :
      WatchStep opening w (.facade (.answer ticket reply)) { w with system := t, arm := some ticket }
  | dropSender {w : Watching} {ticket : Nat} (arm : w.arm = some ticket) :
      WatchStep opening w (.dropSender ticket) { w.close ticket with arm := none }
  | unwind {w : Watching} {ticket : Nat} {command : Command}
      {rest : Native (Except Payload Reply × WorkerState)} {t : System}
      (worker : w.system.worker = .executing ticket command rest) (progress : command.HasProgress)
      (step : Step opening w.system .cleanup t) :
      WatchStep opening w (.facade .cleanup) { w.close ticket with system := t }
  | discard {w : Watching} {ticket : Nat} {command : Command} (worker : w.system.worker = .terminated)
      (queued : (ticket, command) ∈ w.system.queue) (progress : command.HasProgress) :
      WatchStep opening w (.dropSender ticket) (w.close ticket)
  | clone {w : Watching} {i : Nat} {r : Receiver} (h : w.receivers[i]? = some r)
      (idle : r.reader = ProgressReceiver.recv) :
      WatchStep opening w (.clone i) { w with receivers := w.receivers ++ [r] }
  | receive {w : Watching} {i : Nat} {r : Receiver} {l : ProgressReceiver.Label}
      {s : ProgressReceiver.State} (h : w.receivers[i]? = some r) (reads : Reads l)
      (step : ProgressReceiver.Step (w.view r) l s) :
      WatchStep opening w (.receive i r.ticket l)
        { w with receivers := w.receivers.set i { r with seen := s.seen, reader := s.reader } }

/-- The steps of the facade. -/
def watchedLabels (history : List WatchLabel) : List Label := history.filterMap WatchLabel.facade?

/-- The values written for a command, in order. -/
def written (ticket : Nat) (history : List WatchLabel) : List Progress :=
  history.filterMap (WatchLabel.written? ticket)

/-- The steps that a receiver took, in order. -/
def reads (i : Nat) (history : List WatchLabel) : List ProgressReceiver.Label :=
  history.filterMap (WatchLabel.read? i)

/-- The `Some` values that a receiver got, in order. -/
def receivedBy (i : Nat) (history : List WatchLabel) : List Progress :=
  ProgressReceiver.received (reads i history)

/-! ### What the worker delivers -/

/-- The values that a trace puts into a watch channel. -/
def replaced (trace : Trace) : List Progress :=
  trace.filterMap fun
    | ⟨.sendReplace value, _⟩ => some value
    | _ => none

section

variable {handle : Handle} {op : Op} {command : Command} {future : Future} {state : WorkerState}
  {trace : Trace}

theorem replaced_append (first second : Trace) :
    replaced (first ++ second) = replaced first ++ replaced second := List.filterMap_append

/-- The values that the watch replaces are the ones delivered. -/
theorem replaced_delivered (values : List Progress) :
    replaced (values.map Callback.watch.delivered) = values := by
  rw [replaced, List.filterMap_map]
  exact List.filterMap_some

/-- A method with progress writes what the closure delivers of its reports. -/
theorem replaced_progressRun {α : Type} {native : OperationReply → Event} {refused : α}
    {completed : OperationReply → α} {abandoned : Native Unit} {result : Except Payload α}
    (hNative : ∀ reply, replaced [native reply] = [])
    (run : ProgressRun .watch native refused completed abandoned trace result) :
    ∃ reports, replaced trace = deliveries none reports := by
  cases run with
  | refused => exact ⟨[], rfl⟩
  | @completed reply =>
      refine ⟨reply.reports, ?_⟩
      have hSplit (values : List Event) : (⟨.installLease, true⟩ :: native reply ::
          (values ++ [⟨.releaseLease, ()⟩]) : Trace) =
          [⟨.installLease, true⟩] ++ [native reply] ++ values ++ [⟨.releaseLease, ()⟩] := by simp
      have hInstall : replaced [⟨.installLease, true⟩] = [] := rfl
      have hRelease : replaced [⟨.releaseLease, ()⟩] = [] := rfl
      rw [hSplit, replaced_append, replaced_append, replaced_append, hInstall, hRelease, hNative,
        replaced_delivered, List.nil_append, List.nil_append, List.append_nil]
  | panicked reached user dropped => cases user

/-- An arm that only replies and stores the typestate writes nothing more. -/
theorem replaced_replacing {T α : Type} {method : UnwindM (Except (OperationNotStarted T) α)}
    {arm : Except (OperationNotStarted T) α → UnwindM (Reply × WorkerState)}
    {answer : Except Payload Reply × WorkerState}
    (hMethod : ∀ trace result, method.run.Exec trace result →
      ∃ reports, replaced trace = deliveries none reports)
    (hArm : ∀ trace result, method.run.Exec trace (.ok result) →
      ∃ final, (arm result).run = .done final)
    (run : (replacing (method >>= arm)).Exec trace answer) :
    ∃ reports, replaced trace = deliveries none reports := by
  obtain ⟨result, hRun, -⟩ := exec_replacing_iff.mp run
  rcases exec_run_bind_iff.mp hRun with ⟨payload, hFailed, -⟩ | ⟨first, second, a, rfl, hFirst, hDone⟩
  · exact hMethod _ _ hFailed
  · obtain ⟨final, hFinal⟩ := hArm first a hFirst
    rw [hFinal] at hDone
    obtain ⟨rfl, -⟩ := exec_done_iff.mp hDone
    rw [List.append_nil]
    exact hMethod _ _ hFirst

omit [Platform] in
/-- No borrowing command has progress. -/
theorem borrowed_plain (hSends : handle.borrowed op = some command) : ¬command.HasProgress := by
  intro hProgress
  unfold Handle.borrowed at hSends
  split at hSends <;> cases hSends <;> cases hProgress

omit [Platform] in
/-- A command with progress finds the session that it needs. -/
theorem Handle.Matches.progress (hMatches : handle.Matches state)
    (hSends : handle.consumed op = some (command, future)) (hProgress : command.HasProgress) :
    (∃ core options, state = .primary ⟨core⟩ ∧ command = .shutdownWithProgress options) ∨
      ∃ core outcome, state = .pending ⟨some core, some outcome⟩ ∧ command = .restartWithProgress := by
  unfold Handle.consumed at hSends
  split at hSends <;> cases hSends <;> cases hProgress <;> cases hMatches
  · exact .inl ⟨_, _, rfl, rfl⟩
  · exact .inr ⟨_, _, rfl, rfl⟩

/-- Whatever a command with progress has written so far was delivered. -/
theorem executing_replaced (hMatches : handle.Matches state)
    (hSends : handle.consumed op = some (command, future)) (hProgress : command.HasProgress)
    {rest : Native (Except Payload Reply × WorkerState)}
    (run : (executeCommand command state).Steps trace rest) :
    ∃ reports, replaced trace <+: deliveries none reports := by
  obtain ⟨later, answer, run'⟩ := exists_exec (fun c => Classical.choice (Call.answered c)) rest
  have whole : ∃ reports, replaced (trace ++ later) = deliveries none reports := by
    have hExec : (executeCommand command state).Exec (trace ++ later) answer := run.trans run'
    rcases hMatches.progress hSends hProgress with ⟨core, options, rfl, rfl⟩ | ⟨core, outcome, rfl, rfl⟩
    · refine replaced_replacing ?_ ?_ hExec
      · intro trace result hRun
        exact replaced_progressRun (fun _ => rfl) (exec_shutdownWithProgress_iff.mp hRun)
      · intro trace result hRun
        cases exec_shutdownWithProgress_iff.mp hRun with
        | refused => exact ⟨_, rfl⟩
        | completed => exact ⟨_, rfl⟩
    · refine replaced_replacing ?_ ?_ hExec
      · intro trace result hRun
        exact replaced_progressRun (fun _ => rfl) (exec_restartWithProgress_iff.mp hRun)
      · intro trace result hRun
        cases exec_restartWithProgress_iff.mp hRun with
        | refused => exact ⟨_, rfl⟩
        | completed => exact ⟨_, rfl⟩
  obtain ⟨reports, hReports⟩ := whole
  rw [replaced_append] at hReports
  exact ⟨reports, hReports ▸ List.prefix_append _ _⟩

end

/-! ### Steps of the facade -/

section

variable {opening : Opening} {history : List Label} {s t : System} {l : Label} {ticket : Nat}

/-- A command with progress is taken by the typestate of its handle. -/
theorem taken_matches (run : Run (Step opening) .init₀ history s) {state : WorkerState}
    {command : Command} {queue : List (Nat × Command)} (hWorker : s.worker = .idle state)
    (hQueue : s.queue = (ticket, command) :: queue) (hProgress : command.HasProgress) :
    ∃ handle op future, Handle.Matches handle state ∧ handle.consumed op = some (command, future) := by
  obtain ⟨handle, op, hMatches, hSends, -⟩ := taken_sends run hWorker hQueue
  rcases hSends with hBorrowed | ⟨future, hConsumed⟩
  · exact absurd hProgress (borrowed_plain hBorrowed)
  · exact ⟨handle, op, future, hMatches, hConsumed⟩

/-- Sending leaves the worker alone. -/
theorem Step.sends_worker {op : Op} {command : Command} (step : Step opening s (.send op command) t) :
    t.worker = s.worker := by
  cases step <;> rfl

/-- The answer to a command is the end of its execution. -/
theorem Step.answered {reply : Reply} (step : Step opening s (.answer ticket reply) t) :
    (∃ command state, s.worker = .executing ticket command (.done (.ok reply, state)) ∧
      t.worker = .idle state) ∧ t.replies ticket = some reply := by
  generalize hLabel : Label.answer ticket reply = l at step
  cases step
  case answer command reply' state hWorker =>
    cases hLabel
    exact ⟨⟨command, state, hWorker, rfl⟩, Function.update_self ..⟩
  all_goals cases hLabel

/-- The worker unwinds out of no command. -/
theorem executing_cleanup (run : Run (Step opening) .init₀ history s) {command : Command}
    {rest : Native (Except Payload Reply × WorkerState)}
    (hWorker : s.worker = .executing ticket command rest) : ¬Step opening s .cleanup t := by
  intro step
  obtain ⟨done, flight, h⟩ := Pipeline.of_run run
  generalize hLabel : Label.cleanup = l at step
  cases step
  case initUnsent hOpened _ => cases hWorker.symm.trans hOpened
  case unwind hUnwinds => exact h.no_unwind hUnwinds
  case disconnect hIdle _ _ => cases hWorker.symm.trans hIdle
  all_goals cases hLabel

/-- A worker that has terminated has taken every command. -/
theorem terminated_queue (run : Run (Step opening) .init₀ history s) (hWorker : s.worker = .terminated) :
    s.queue = [] := by
  obtain ⟨done, flight, h⟩ := Pipeline.of_run run
  obtain ⟨rfl, -⟩ := h.terminated hWorker
  exact h.queue_eq

end

end Tokio
end RestartManager
