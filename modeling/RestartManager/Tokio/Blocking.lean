import RestartManager.Tokio.Commands

/-! The program that a caller of the blocking API would write for the same
operations: it takes the state out of a refusal, and drops what it holds at
the end. -/
namespace RestartManager

open Interaction Contract Program

namespace Tokio

variable [Platform]

def Opening.blocking : Opening → Native (Except Error Value)
  | .primary => do
      return (← RestartSession.new).map .session
  | .joined key => do
      return (← (JoinedSession.join key).run).map .joined

/-- What the owner holds after these operations, the native calls made so far,
and what the last operation returned, until a refusal is taken apart. -/
inductive Blocking (opening : Opening) : List Op → Trace → Value → Option Output → Prop
  | opened {trace : Trace} {value : Value} (run : opening.blocking.Exec trace (.ok value)) :
      Blocking opening [] trace value none
  | perform {ops : List Op} {trace later : Trace} {value value' : Value} {last : Option Output}
      {op : Op} {output : Output} {p : Native (Value × Output)}
      (before : Blocking opening ops trace value last)
      (method : RestartManager.perform value op = some p) (run : p.Exec later (value', output)) :
      Blocking opening (ops ++ [op]) (trace ++ later) value' (some output)
  | retry {ops : List Op} {trace later : Trace} {value value' : Value} {last : Option Output}
      {output : Output} {p : Native (Value × Output)}
      (before : Blocking opening ops trace value last)
      (method : RestartManager.perform value .intoParts = some p)
      (run : p.Exec later (value', output)) : Blocking opening ops (trace ++ later) value' none

/-- The native calls of such a program at any moment. The flag tells whether
its owner has begun to drop what it holds. -/
inductive BlockingTrace (opening : Opening) : List Op → Bool → Trace → Prop
  | opening {trace : Trace} {p : Native (Except Error Value)} (run : opening.blocking.Steps trace p) :
      BlockingTrace opening [] false trace
  | idle {ops : List Op} {trace : Trace} {value : Value} {last : Option Output}
      (run : Blocking opening ops trace value last) : BlockingTrace opening ops false trace
  | performing {ops : List Op} {trace later : Trace} {value : Value} {last : Option Output} {op : Op}
      {p q : Native (Value × Output)} (before : Blocking opening ops trace value last)
      (method : perform value op = some p) (run : p.Steps later q) :
      BlockingTrace opening (ops ++ [op]) false (trace ++ later)
  | releasing {ops : List Op} {trace later : Trace} {value : Value} {last : Option Output}
      {q : Native Unit} (before : Blocking opening ops trace value last)
      (run : value.drop.Steps later q) : BlockingTrace opening ops true (trace ++ later)

variable {opening : Opening}

/-- An operation on what a refusal gave back is one of the blocking program. -/
theorem Blocking.retained {ops : List Op} {trace : Trace} {value : Value} {last : Option Output}
    (h : Blocking opening ops trace value last) :
    ∃ last', Blocking opening ops trace (retained value) last' := by
  cases value with
  | shutdownNotStarted error =>
      have hRetry := Blocking.retry h rfl (.refl _)
      rw [List.append_nil] at hRetry
      exact ⟨_, hRetry⟩
  | restartNotStarted error =>
      have hRetry := Blocking.retry h rfl (.refl _)
      rw [List.append_nil] at hRetry
      exact ⟨_, hRetry⟩
  | session session => exact ⟨_, h⟩
  | joined session => exact ⟨_, h⟩
  | pending pending => exact ⟨_, h⟩
  | completion completion => exact ⟨_, h⟩
  | gone => exact ⟨_, h⟩

/-- The worker drops what the caller of the blocking API would. -/
theorem WorkerState.drop_eq (state : WorkerState) : state.drop = state.value.drop := by
  cases state <;> rfl

/-! ### The start of a worker -/

/-- The worker opens what the blocking start returns, and the handle matches. -/
def Opens (result : Except Error Value) (start : Except Error (WorkerState × Handle)) : Prop :=
  result = (start.map fun opened => opened.1.value) ∧
    ∀ state handle, start = .ok (state, handle) → handle.Matches state

theorem wp_joinedSession (key : SessionKey) : recoveryContract.wp (JoinedSession.join key).run
    (fun result s => match result with
      | .ok session => session.core.key = key ∧ Value.Fits s (.joined session)
      | .error _ => Value.Fits s .gone) Monitor.init := by
  refine (wp_run_bind _ _ _ _ _).mpr (wp_mono _ (wp_join key) ?_)
  rintro (error | core) s h
  · obtain rfl := h
    exact .gone
  · obtain ⟨hOpen, hKey, rfl⟩ := h
    exact ⟨hKey, .joined hOpen⟩

/-- A start of the worker has the calls of the blocking start. -/
theorem related_start {α : Type} {start : Native (Except Error α)} (state : α → WorkerState)
    (handle : α → Handle)
    (h : Returns (fun result => ∀ value, result = .ok value → (handle value).Matches (state value))
      start) :
    Related Opens (do return (← start).map fun value => (state value).value)
      (do return (← start).map fun value => (state value, handle value)) := by
  apply (Related.refl h).bind
  rintro _ result ⟨rfl, hOpen⟩
  apply Related.done
  cases result with
  | error error =>
      refine ⟨rfl, ?_⟩
      intro state handle hState
      cases hState
  | ok value =>
      refine ⟨rfl, ?_⟩
      intro state handle hState
      cases hState
      exact hOpen value rfl

/-- Either start of the worker refines its blocking start. -/
theorem Opening.start_refines (opening : Opening) : Related Opens opening.blocking opening.start := by
  cases opening with
  | primary =>
      refine related_start WorkerState.primary _
        (returns_of_wp recoveryContract wp_new (fun _ _ _ => trivial) ?_)
      rintro _ _ h session rfl
      cases h with
      | session hOpen => exact .session hOpen
  | joined key =>
      refine related_start WorkerState.joined (fun _ => .joined key)
        (returns_of_wp recoveryContract (wp_joinedSession key) (fun _ _ _ => trivial) ?_)
      rintro _ _ h session rfl
      obtain ⟨rfl, hFits⟩ := h
      cases hFits with
      | joined hOpen => exact .joined hOpen

/-- The monitor after a start. -/
def Begun (result : Except Error Value) (m : Monitor) : Prop :=
  match result with
  | .ok value => value.Fits m
  | .error _ => m.live = none

/-- What an opening returns fits the session that it began. -/
theorem wp_blocking (opening : Opening) : recoveryContract.wp opening.blocking Begun Monitor.init := by
  cases opening with
  | primary =>
      refine (wp_bind _ _ _ _ _).mpr (wp_mono _ wp_new ?_)
      rintro (error | session) s h
      · cases h
        rfl
      · exact h
  | joined key =>
      refine (wp_bind _ _ _ _ _).mpr (wp_mono _ (wp_joinedSession key) ?_)
      rintro (error | session) s h
      · cases h
        rfl
      · exact h.2

/-! ### What every program keeps -/

section Invariant

variable {State : Type} {C : Contract Call.Response State} {I : Value → State → Prop} {s : State}
  {ops : List Op} {trace : Trace} {value : Value} {last : Option Output}

/-- A condition on what is held that every operation keeps, under a contract
that relies on nothing. -/
structure Keeps (C : Contract Call.Response State) (I : Value → State → Prop) : Prop where
  rely : ∀ s c r, C.rely s c r
  perform : ∀ {value : Value} {op : Op} {p : Native (Value × Output)} {s : State}, I value s →
    RestartManager.perform value op = some p → C.wp p (fun result s' => I result.1 s') s
  drop : ∀ {value : Value} {s : State}, I value s → C.wp value.drop (fun _ _ => True) s

theorem Keeps.run (keeps : Keeps C I) {α : Type} {p q : Native α} {Q : α → State → Prop}
    (run : p.Steps trace q) (h : C.wp p Q s) : C.Respects s trace ∧ C.wp q Q (C.after s trace) :=
  C.wp_steps run h (C.conforms_of_rely keeps.rely s trace)

/-- By induction on the operations: what each of them leaves meets the invariant. -/
theorem Blocking.keeps (h : Blocking opening ops trace value last) (keeps : Keeps C I)
    (hOpening : C.wp opening.blocking (fun result s' => ∀ value, result = .ok value → I value s') s) :
    C.Respects s trace ∧ I value (C.after s trace) := by
  induction h with
  | opened run =>
      obtain ⟨hRespects, hAfter⟩ := keeps.run run hOpening
      exact ⟨hRespects, hAfter _ rfl⟩
  | perform before method run ih =>
      obtain ⟨hBefore, hHeld⟩ := ih
      obtain ⟨hRespects, hAfter⟩ := keeps.run run (keeps.perform hHeld method)
      rw [C.respects_append, C.after_append]
      exact ⟨⟨hBefore, hRespects⟩, hAfter⟩
  | retry before method run ih =>
      obtain ⟨hBefore, hHeld⟩ := ih
      obtain ⟨hRespects, hAfter⟩ := keeps.run run (keeps.perform hHeld method)
      rw [C.respects_append, C.after_append]
      exact ⟨⟨hBefore, hRespects⟩, hAfter⟩

/-- The contract is respected at any moment. -/
theorem BlockingTrace.respects {flag : Bool} (h : BlockingTrace opening ops flag trace)
    (keeps : Keeps C I)
    (hOpening : C.wp opening.blocking (fun result s' => ∀ value, result = .ok value → I value s') s) :
    C.Respects s trace := by
  cases h with
  | opening run => exact (keeps.run run hOpening).1
  | idle run => exact (run.keeps keeps hOpening).1
  | performing before method run =>
      obtain ⟨hBefore, hHeld⟩ := before.keeps keeps hOpening
      rw [C.respects_append]
      exact ⟨hBefore, (keeps.run run (keeps.perform hHeld method)).1⟩
  | releasing before run =>
      obtain ⟨hBefore, hHeld⟩ := before.keeps keeps hOpening
      rw [C.respects_append]
      exact ⟨hBefore, (keeps.run run (keeps.drop hHeld)).1⟩

end Invariant

end Tokio
end RestartManager
