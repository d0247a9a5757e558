import RestartManager.Session.Recovery

/-! The lives of a primary session, and what every one of them owes the
applications that were shut down. -/
namespace RestartManager

open Interaction

section

variable [Platform]

/-- A step in the history of a session: its owner begins an operation, or the
crate makes a call. -/
inductive Entry
  | op (op : Op)
  | call (event : Event)

/-- What happened so far to one primary session and what its owner holds, when
no operation is under way. -/
inductive Life : List Entry → Value → Prop
  | started {trace : Trace} {session : RestartSession}
      (run : RestartSession.new.Exec trace (.ok session)) :
      Life (trace.map .call) (.session session)
  | failed {trace : Trace} {error : Error} (run : RestartSession.new.Exec trace (.error error)) :
      Life (trace.map .call) .gone
  | perform {history : List Entry} {value value' : Value} {op : Op} {output : Output}
      {p : Native (Value × Output)} {trace : Trace} (life : Life history value)
      (method : perform value op = some p) (run : p.Exec trace (value', output)) :
      Life (history ++ .op op :: trace.map .call) value'

/-- A history that can be observed: at any moment, also inside an operation. -/
inductive Observed : List Entry → Prop
  | starting {trace : Trace} {p : Native (Except Error RestartSession)}
      (run : RestartSession.new.Steps trace p) : Observed (trace.map .call)
  | idle {history : List Entry} {value : Value} (life : Life history value) : Observed history
  | performing {history : List Entry} {value : Value} {op : Op} {p q : Native (Value × Output)}
      {trace : Trace} (life : Life history value) (method : RestartManager.perform value op = some p)
      (run : p.Steps trace q) : Observed (history ++ .op op :: trace.map .call)

/-! ### The monitor over a history -/

namespace Monitor

def init : Monitor := ⟨none, .registering⟩

def step (s : Monitor) : Entry → Monitor
  | .op op => s.mark op
  | .call event => recoveryContract.next s event.1 event.2

def after : Monitor → List Entry → Monitor
  | s, [] => s
  | s, e :: history => after (s.step e) history

/-- No call of the history is one that the obligation forbids. -/
def Admits : Monitor → List Entry → Prop
  | _, [] => True
  | s, e :: history =>
      (∀ event, e = .call event → recoveryContract.guarantee s event.1) ∧ Admits (s.step e) history

theorem after_append (s : Monitor) (first second : List Entry) :
    s.after (first ++ second) = (s.after first).after second := by
  induction first generalizing s with
  | nil => rfl
  | cons e first ih => exact ih _

theorem admits_append (s : Monitor) (first second : List Entry) :
    s.Admits (first ++ second) ↔ s.Admits first ∧ (s.after first).Admits second := by
  induction first generalizing s with
  | nil => simp [Admits, after]
  | cons e first ih => simp [Admits, after, ih, and_assoc]

theorem after_calls (s : Monitor) (trace : Trace) :
    s.after (trace.map .call) = recoveryContract.after s trace := by
  induction trace generalizing s with
  | nil => rfl
  | cons event trace ih => exact ih _

theorem admits_calls (s : Monitor) (trace : Trace) :
    s.Admits (trace.map .call) ↔ recoveryContract.Respects s trace := by
  induction trace generalizing s with
  | nil => rfl
  | cons event trace ih =>
      rw [List.map_cons, Admits, Contract.Respects]
      refine and_congr ⟨fun h => h event rfl, ?_⟩ (ih _)
      rintro h _ ⟨⟩
      exact h

end Monitor

/-- A program whose calls the monitor allows extends an admitted history. -/
theorem admits_run {α : Type} {p q : Native α} {Q : α → Monitor → Prop} {trace : Trace}
    {s : Monitor} (run : p.Steps trace q) (h : recoveryContract.wp p Q s) :
    s.Admits (trace.map .call) ∧ recoveryContract.wp q Q (s.after (trace.map .call)) := by
  have hConforms := recoveryContract.conforms_of_rely (fun _ _ _ => trivial) s trace
  rw [Monitor.admits_calls, Monitor.after_calls]
  exact recoveryContract.wp_steps run h hConforms

theorem wp_new : recoveryContract.wp RestartSession.new
    (fun result s => match result with
      | .ok session => Value.Fits s (.session session)
      | .error _ => Value.Fits s .gone) Monitor.init := by
  refine (Contract.wp_bind _ _ _ _ _).mpr (Contract.wp_mono _ wp_start ?_)
  rintro (error | core) s h
  · obtain rfl := h
    exact .gone
  · obtain ⟨hOpen, rfl⟩ := h
    exact .session hOpen

/-- In every life the monitor admits the history, and what the owner holds
agrees with it. -/
theorem Life.fits {history : List Entry} {value : Value} (life : Life history value) :
    Monitor.init.Admits history ∧ value.Fits (Monitor.init.after history) := by
  induction life with
  | started run => exact admits_run run wp_new
  | failed run => exact admits_run run wp_new
  | perform life method run ih =>
      obtain ⟨hAdmits, hFits⟩ := ih
      obtain ⟨hCalls, hAfter⟩ := admits_run run (wp_perform hFits method)
      rw [Monitor.admits_append, Monitor.after_append]
      exact ⟨⟨hAdmits, by simp, hCalls⟩, hAfter⟩

theorem Observed.admits {history : List Entry} (h : Observed history) :
    Monitor.init.Admits history := by
  cases h with
  | starting run => exact (admits_run run wp_new).1
  | idle life => exact life.fits.1
  | performing life method run =>
      obtain ⟨hAdmits, hFits⟩ := life.fits
      rw [Monitor.admits_append]
      exact ⟨hAdmits, by simp, (admits_run run (wp_perform hFits method)).1⟩

/-! ### What the monitor admits -/

/-- The entry is a call of this kind. -/
def Entry.Issues (P : Call → Prop) : Entry → Prop
  | .op _ => False
  | .call event => P event.1

def Call.IsShutdown : Call → Prop
  | .rmShutdown .. => True
  | _ => False

def Call.IsRestart : Call → Prop
  | .rmRestart .. => True
  | _ => False

def Call.IsEnd : Call → Prop
  | .rmEndSession _ => True
  | _ => False

/-- The calls that belong before a shutdown. -/
def Call.SetsUp : Call → Prop
  | .rmRegisterResources .. | .rmAddFilter .. | .rmRemoveFilter .. | .rmGetFilterList .. => True
  | _ => False

namespace Monitor

/-- Where one entry can take the phase. -/
theorem phase_step (s : Monitor) (e : Entry) :
    (e.Issues Call.IsShutdown ∧ (s.step e).phase = .armed) ∨
    (e.Issues Call.IsRestart ∧ (s.step e).phase = .recovered) ∨
    (e = .op .leaveStopped ∧ (s.step e).phase = .left) ∨
    (¬e.Issues Call.IsShutdown ∧ ¬e.Issues Call.IsRestart ∧ e ≠ .op .leaveStopped ∧
      (s.step e).phase = s.phase) := by
  cases e with
  | op op =>
      by_cases h : op = .leaveStopped
      · subst h
        exact .inr (.inr (.inl ⟨rfl, rfl⟩))
      · refine .inr (.inr (.inr ⟨id, id, fun h' => h (Entry.op.inj h'), ?_⟩))
        cases op <;> first | rfl | exact absurd rfl h
  | call event =>
      obtain ⟨c, response⟩ := event
      cases c <;> first
        | exact .inl ⟨trivial, rfl⟩
        | exact .inr (.inl ⟨trivial, rfl⟩)
        | exact .inr (.inr (.inr ⟨id, id, nofun, rfl⟩))

theorem phase_shutdown {s : Monitor} {e : Entry} (h : e.Issues Call.IsShutdown) :
    (s.step e).phase = .armed := by
  cases e with
  | op op => exact h.elim
  | call event =>
      obtain ⟨c, response⟩ := event
      cases c <;> first | rfl | exact h.elim

/-- The phases in which an admitted entry can be. -/
theorem phase_of_allowed {s : Monitor} {e : Entry}
    (h : ∀ event, e = .call event → recoveryContract.guarantee s event.1) :
    (e.Issues Call.SetsUp ∨ e.Issues Call.IsShutdown → s.phase = .registering) ∧
    (e.Issues Call.IsRestart → s.phase = .armed ∨ s.phase = .recovered) ∧
    (e.Issues Call.IsEnd → s.phase ≠ .armed) := by
  cases e with
  | op op => exact ⟨fun h' => h'.elim False.elim False.elim, False.elim, False.elim⟩
  | call event =>
      have hGuarantee := h event rfl
      obtain ⟨c, response⟩ := event
      cases c <;> first
        | exact ⟨fun _ => hGuarantee, False.elim, False.elim⟩
        | exact ⟨fun h' => h'.elim False.elim False.elim, fun _ => hGuarantee, False.elim⟩
        | exact ⟨fun h' => h'.elim False.elim False.elim, False.elim, fun _ => hGuarantee.1⟩
        | exact ⟨fun h' => h'.elim False.elim False.elim, False.elim, False.elim⟩

variable {s : Monitor} {history : List Entry}

/-- Once registration is over, no call that belongs before it is admitted. -/
theorem Admits.closed (h : s.Admits history) (hPhase : s.phase ≠ .registering) :
    ∀ e ∈ history, ¬e.Issues Call.SetsUp ∧ ¬e.Issues Call.IsShutdown := by
  induction history generalizing s with
  | nil => exact nofun
  | cons e history ih =>
      obtain ⟨hOnly, -, -⟩ := phase_of_allowed h.1
      have hNext : (s.step e).phase ≠ .registering := by
        rcases phase_step s e with ⟨-, h⟩ | ⟨-, h⟩ | ⟨-, h⟩ | ⟨-, -, -, h⟩ <;> rw [h]
        all_goals first | exact hPhase | decide
      rintro e' (_ | ⟨_, hMem⟩)
      · exact ⟨fun h' => hPhase (hOnly (.inl h')), fun h' => hPhase (hOnly (.inr h'))⟩
      · exact ih h.2 hNext e' hMem

/-- Without a shutdown nothing is restarted. -/
theorem Admits.unarmed (h : s.Admits history) (hPhase : s.phase = .registering ∨ s.phase = .left)
    (hShutdown : ∀ e ∈ history, ¬e.Issues Call.IsShutdown) :
    (s.after history).phase = .registering ∨ (s.after history).phase = .left := by
  induction history generalizing s with
  | nil => exact hPhase
  | cons e history ih =>
      obtain ⟨-, hRestart, -⟩ := phase_of_allowed h.1
      refine ih h.2 ?_ fun e' hMem => hShutdown e' (List.mem_cons_of_mem _ hMem)
      rcases phase_step s e with ⟨h', -⟩ | ⟨h', -⟩ | ⟨-, h'⟩ | ⟨-, -, -, h'⟩
      · exact absurd h' (hShutdown e List.mem_cons_self)
      · rcases hPhase with hPhase | hPhase <;> rcases hRestart h' with h | h <;> simp [hPhase] at h
      · exact .inr h'
      · rwa [h']

/-- An armed session stays armed until it is restarted or left stopped. -/
theorem after_armed (hPhase : s.phase = .armed)
    (hRestart : ∀ e ∈ history, ¬e.Issues Call.IsRestart) (hLeave : Entry.op .leaveStopped ∉ history) :
    (s.after history).phase = .armed := by
  induction history generalizing s with
  | nil => exact hPhase
  | cons e history ih =>
      rw [List.mem_cons, not_or] at hLeave
      refine ih ?_ (fun e' hMem => hRestart e' (List.mem_cons_of_mem _ hMem)) hLeave.2
      rcases phase_step s e with ⟨-, h⟩ | ⟨h, -⟩ | ⟨h, -⟩ | ⟨-, -, -, h⟩
      · exact h
      · exact absurd h (hRestart e List.mem_cons_self)
      · exact absurd h.symm hLeave.1
      · rw [h, hPhase]

/-- A session that is live ends with a call on its own handle. -/
theorem Admits.ended {raw : UInt32} (h : s.Admits history) (hLive : s.live = some raw)
    (hClosed : (s.after history).live = none) :
    ∃ code, Entry.call ⟨.rmEndSession raw, code⟩ ∈ history := by
  induction history generalizing s with
  | nil => simp [after, hLive] at hClosed
  | cons e history ih =>
      have hLater (hStep : (s.step e).live = some raw) :
          ∃ code, Entry.call ⟨.rmEndSession raw, code⟩ ∈ e :: history := by
        obtain ⟨code, hMem⟩ := ih h.2 hStep hClosed
        exact ⟨code, List.mem_cons_of_mem _ hMem⟩
      cases e with
      | op op => exact hLater (by cases op <;> exact hLive)
      | call event =>
          have hGuarantee := h.1 event rfl
          obtain ⟨c, response⟩ := event
          cases c with
          | rmStartSession => exact absurd (hLive.symm.trans hGuarantee) (by simp)
          | rmJoinSession key => exact absurd (hLive.symm.trans hGuarantee) (by simp)
          | rmEndSession raw' =>
              obtain rfl : raw = raw' := hGuarantee.2 raw hLive
              exact ⟨response, List.mem_cons_self⟩
          | _ => exact hLater hLive

/-- A session that was left stopped is not restarted. -/
theorem Admits.left_stopped (h : s.Admits history) (hPhase : s.phase = .left) :
    ∀ e ∈ history, ¬e.Issues Call.IsRestart := by
  induction history generalizing s with
  | nil => exact nofun
  | cons e history ih =>
      obtain ⟨hOnly, hRestart, -⟩ := phase_of_allowed h.1
      have hNo : ¬e.Issues Call.IsRestart := by
        intro h'
        rcases hRestart h' with h | h <;> simp [hPhase] at h
      have hNext : (s.step e).phase = .left := by
        rcases phase_step s e with ⟨h', -⟩ | ⟨h', -⟩ | ⟨-, h'⟩ | ⟨-, -, -, h'⟩
        · simp [hPhase] at hOnly
          exact absurd h' hOnly.2
        · exact absurd h' hNo
        · exact h'
        · rw [h', hPhase]
      rintro e' (_ | ⟨_, hMem⟩)
      · exact hNo
      · exact ih h.2 hNext e' hMem

end Monitor

/-- What every observed history of a primary session satisfies. -/
structure RecoveryObligation (history : List Entry) : Prop where
  /-- `RmShutdown` is issued at most once. -/
  shutdown_once : ∀ first e second, history = first ++ e :: second →
    e.Issues Call.IsShutdown → ∀ e' ∈ second, ¬e'.Issues Call.IsShutdown
  /-- `RmRestart` is issued only after `RmShutdown`. -/
  restart_after_shutdown : ∀ first e second, history = first ++ e :: second →
    e.Issues Call.IsRestart → ∃ e' ∈ first, e'.Issues Call.IsShutdown
  /-- After `RmShutdown`, nothing is registered and no filter is touched. -/
  registration_closed : ∀ first e second, history = first ++ e :: second →
    e.Issues Call.IsShutdown → ∀ e' ∈ second, ¬e'.Issues Call.SetsUp
  /-- Between `RmShutdown` and `RmEndSession` there is an `RmRestart`, unless
  the applications were left stopped. -/
  recovered_before_end : ∀ first e second e' third, history = first ++ e :: (second ++ e' :: third) →
    e.Issues Call.IsShutdown → e'.Issues Call.IsEnd →
    (∃ r ∈ second, r.Issues Call.IsRestart) ∨ Entry.op .leaveStopped ∈ first ++ e :: second
  /-- After `leave_stopped`, no `RmRestart` follows. -/
  left_stopped : ∀ first second, history = first ++ .op .leaveStopped :: second →
    ∀ e ∈ second, ¬e.Issues Call.IsRestart

theorem RecoveryObligation.of_admits {history : List Entry} (hAdmits : Monitor.init.Admits history) :
    RecoveryObligation history := by
  constructor
  · rintro first e second rfl he e' hMem
    obtain ⟨-, -, hSecond⟩ := (Monitor.admits_append _ _ _).mp hAdmits
    exact (hSecond.closed (by rw [Monitor.phase_shutdown he]; decide) e' hMem).2
  · rintro first e second rfl he
    by_contra hNone
    push Not at hNone
    obtain ⟨hFirst, hAllowed, -⟩ := (Monitor.admits_append _ _ _).mp hAdmits
    have hUnarmed := hFirst.unarmed (.inl rfl) hNone
    obtain ⟨-, hRestart, -⟩ := Monitor.phase_of_allowed hAllowed
    rcases hUnarmed with h | h <;> rcases hRestart he with h' | h' <;> simp [h] at h'
  · rintro first e second rfl he e' hMem
    obtain ⟨-, -, hSecond⟩ := (Monitor.admits_append _ _ _).mp hAdmits
    exact (hSecond.closed (by rw [Monitor.phase_shutdown he]; decide) e' hMem).1
  · rintro first e second e' third rfl he he'
    by_contra hNone
    push Not at hNone
    obtain ⟨hRestart, hLeave⟩ := hNone
    obtain ⟨-, -, hRest⟩ := (Monitor.admits_append _ _ _).mp hAdmits
    obtain ⟨-, hAllowed, -⟩ := (Monitor.admits_append _ _ _).mp hRest
    have hLeft : Entry.op .leaveStopped ∉ second := fun h => hLeave (by simp [h])
    have hArmed : (((Monitor.init.after first).step e).after second).phase = .armed :=
      Monitor.after_armed (Monitor.phase_shutdown he) hRestart hLeft
    exact (Monitor.phase_of_allowed hAllowed).2.2 he' hArmed
  · rintro first second rfl
    obtain ⟨-, -, hSecond⟩ := (Monitor.admits_append _ _ _).mp hAdmits
    exact hSecond.left_stopped rfl

/-- Every life of a primary session meets the recovery obligation, whatever
Windows answers, wherever values are dropped and whichever callback panics. -/
theorem recovery_obligation {history : List Entry} (h : Observed history) :
    RecoveryObligation history := .of_admits h.admits

end

section

attribute [local instance] Platform.driveLetters

/-- The key of thirty-two zeros, as Windows returns it. -/
def zeroKey : Vector UInt16 33 := (Vector.replicate 32 0x30).push 0

/-- A session whose shutdown is interrupted by a panicking callback. -/
def interruptedShutdown : List Entry :=
  [.call ⟨.rmStartSession, ⟨ERROR_SUCCESS, 3, zeroKey⟩⟩,
    .op (.shutdownWithProgress {} .user),
    .call ⟨.installLease, true⟩,
    .call ⟨.rmShutdown 3 0 true, ⟨[10], ERROR_SUCCESS⟩⟩,
    .call ⟨.invokeCallback ⟨10, by decide⟩, some (.user 1)⟩,
    .call ⟨.releaseLease, ()⟩,
    .call ⟨.rmRestart 3 0 false, ⟨[], ERROR_FAIL_RESTART⟩⟩,
    .call ⟨.rmEndSession 3, ERROR_SUCCESS⟩]

theorem recovery_obligation_interrupted : RecoveryObligation interruptedShutdown := by
  let session : RestartSession := ⟨⟨3, false⟩, ⟨List.replicate 32 0x30, by decide⟩⟩
  have hStart : RestartSession.new.Exec [⟨.rmStartSession, ⟨ERROR_SUCCESS, 3, zeroKey⟩⟩]
      (.ok session) := .step (.refl _)
  have hRun : ∀ p, perform (.session session) (.shutdownWithProgress {} .user) = some p → p.Exec
      [⟨.installLease, true⟩, ⟨.rmShutdown 3 0 true, ⟨[10], ERROR_SUCCESS⟩⟩,
        ⟨.invokeCallback ⟨10, by decide⟩, some (.user 1)⟩, ⟨.releaseLease, ()⟩,
        ⟨.rmRestart 3 0 false, ⟨[], ERROR_FAIL_RESTART⟩⟩, ⟨.rmEndSession 3, ERROR_SUCCESS⟩]
      (.gone, .panicked (.user 1)) := by
    rintro _ ⟨⟩
    exact .step (.step (.step (.step (.step (.step (.refl _))))))
  exact recovery_obligation (.idle (.perform (.started hStart) rfl (hRun _ rfl)))

end
end RestartManager
