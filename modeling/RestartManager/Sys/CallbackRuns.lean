import RestartManager.Sys.CallbackSlot

/-! Each operation of the interleaved machine is a run of the sequential
`run_with_callback`: its callback sees the reports of its own native call, one
after the other, and its outcome is what the sequential program returns. The
slot is exclusive, and the closures run through it alone. -/
namespace RestartManager

open Interaction Program Mutex Transition

namespace CallbackSlot

section

variable [Platform] {σ : Type}

/-- The samples that were delivered to the callback of `i`, in order. -/
def Label.sample? (i : Nat) : Label → Option UInt32
  | .deliver _ _ percent target => if target = i then some percent else none
  | _ => none

/-- A call that the callback of `i` made. -/
def Label.event? (i : Nat) : Label → Option Event
  | .callback target event => if target = i then some event else none
  | _ => none

def samples (i : Nat) (history : List Label) : List UInt32 := history.filterMap (Label.sample? i)

def events (i : Nat) (history : List Label) : Trace := history.filterMap (Label.event? i)

/-- What the callback of `i` still has to run. -/
inductive Running (s : State σ) (i : Nat) : Native (CallbackState σ) → Prop
  | calling {r j : Nat} {percent : UInt32} {p : Native (CallbackState σ)}
      (h : s.report r = .calling j percent i (trampolined p)) : Running s i p
  | idle (h : ∀ r j percent rest, s.report r ≠ .calling j percent i rest) :
      Running s i (.done (s.state i))

variable (callback : Nat → Closure σ) (captured : Nat → σ)

/-- The sequential loop over the samples that were delivered to `i`. -/
def loop (i : Nat) (history : List Label) : Native (CallbackState σ) :=
  (samples i history).foldlM (callCallback (callback i)) { captured := captured i, panic := none }

/-- The callbacks so far are runs of the loops. -/
def Looping (history : List Label) (s : State σ) : Prop :=
  ∀ i p, Running s i p → (loop callback captured i history).Steps (events i history) p

variable {callback captured} {history : List Label} {s t : State σ} {l : Label}

/-- A step that moves no report and no state runs no callback. -/
theorem Running.of_same {i : Nat} {p : Native (CallbackState σ)} (h : Running t i p)
    (hReport : t.report = s.report) (hState : t.state = s.state) : Running s i p := by
  cases h with
  | calling h =>
      rw [hReport] at h
      exact .calling h
  | idle h =>
      rw [hReport] at h
      rw [hState]
      exact .idle h

/-- A report that is neither called before nor after changes nothing. -/
theorem Running.of_report {i r : Nat} {phase : ReportPhase σ} {p : Native (CallbackState σ)}
    (h : Running t i p) (hReport : t.report = Function.update s.report r phase)
    (hState : t.state i = s.state i) (hPhase : ∀ j percent rest, phase ≠ .calling j percent i rest)
    (hBefore : ∀ j percent rest, s.report r ≠ .calling j percent i rest) : Running s i p := by
  cases h with
  | @calling r' j percent p h =>
      by_cases hr : r' = r
      · rw [hReport, hr, Function.update_self] at h
        exact absurd h (hPhase _ _ _)
      · rw [hReport, Function.update_of_ne hr] at h
        exact .calling h
  | idle h =>
      rw [hState]
      refine .idle fun r' j percent rest h' => ?_
      by_cases hr : r' = r
      · exact hBefore _ _ _ (hr ▸ h')
      · refine h r' j percent rest ?_
        rw [hReport, Function.update_of_ne hr]
        exact h'

/-- A report that is in a callback, and alone there, runs what its phase says. -/
theorem Running.of_called {i r j : Nat} {percent : UInt32} {p q : Native (CallbackState σ)}
    (h : Running t i p)
    (hReport : t.report = Function.update s.report r (.calling j percent i (trampolined q)))
    (hAlone : ∀ r' j' percent' rest, r' ≠ r → s.report r' ≠ .calling j' percent' i rest) : p = q := by
  have hCalled : t.report r = .calling j percent i (trampolined q) := by
    rw [hReport, Function.update_self]
  cases h with
  | @calling r' j' percent' p h =>
      by_cases hr : r' = r
      · rw [hr] at h
        injection hCalled.symm.trans h with _ _ _ hSame
        exact (trampolined_injective hSame).symm
      · rw [hReport, Function.update_of_ne hr] at h
        exact absurd h (hAlone _ _ _ _ hr)
  | idle h => exact absurd hCalled (h _ _ _ _)

/-- A step without a sample or a call of the closure. -/
theorem Looping.quiet (h : Looping callback captured history s) {i : Nat}
    {p : Native (CallbackState σ)} (hRunning : Running s i p) (hSample : l.sample? i = none)
    (hEvent : l.event? i = none) :
    (loop callback captured i (history ++ [l])).Steps (events i (history ++ [l])) p := by
  have hSteps := h i p hRunning
  simpa [loop, samples, events, List.filterMap_append, hSample, hEvent] using hSteps

/-- Only one callback runs at a time. -/
theorem Consistent.one_calling (h : Consistent s) {r r' i i' target target' : Nat}
    {percent percent' : UInt32} {rest rest' : Native (Except Payload (Option (CallbackState σ)))}
    (hr : s.report r = .calling i percent target rest)
    (hr' : s.report r' = .calling i' percent' target' rest') : r = r' := by
  have hGuards : s.Guards (.report r) := ⟨_, _, _, _, hr⟩
  have hGuards' : s.Guards (.report r') := ⟨_, _, _, _, hr'⟩
  cases h.exclusive.same hGuards hGuards'
  rfl

/-- With the mutex free no report is in its callback. -/
theorem Consistent.none_calling (h : Consistent s) (hFree : s.guard = none) {r i target : Nat}
    {percent : UInt32} {rest : Native (Except Payload (Option (CallbackState σ)))} :
    s.report r ≠ .calling i percent target rest := by
  intro hr
  have hGuards : s.Guards (.report r) := ⟨_, _, _, _, hr⟩
  exact h.exclusive.free hFree hGuards

/-- The next sample is delivered once the loop over the ones before has returned. -/
theorem Looping.deliver (h : Looping callback captured history s) {r i target : Nat}
    {percent : UInt32}
    (hIdle : ∀ r j percent rest, s.report r ≠ .calling j percent target rest) :
    (loop callback captured target (history ++ [.deliver r i percent target])).Steps
      (events target (history ++ [.deliver r i percent target]))
      (callCallback (callback target) (s.state target) percent) := by
  have hBefore := h target _ (.idle hIdle)
  have hSamples : samples target (history ++ [.deliver r i percent target]) =
      samples target history ++ [percent] := by
    simp [samples, List.filterMap_append, Label.sample?]
  have hEvents : events target (history ++ [.deliver r i percent target]) =
      events target history ++ [] := by
    simp [events, List.filterMap_append, Label.event?]
  rw [loop, hSamples, hEvents, List.foldlM_append]
  refine steps_bind_iff.mpr (.inr ⟨_, [], _, rfl, hBefore, ?_⟩)
  rw [List.foldlM_cons]
  simp only [List.foldlM_nil, bind_pure]
  exact .refl _

/-- Every step keeps the deliveries a run of the loop. -/
theorem Looping.step (h : Looping callback captured history s) (hConsistent : Consistent s)
    (step : Step callback s l t) : Looping callback captured (history ++ [l]) t := by
  intro k p hp
  cases step with
  | tryLock | wouldBlock | occupied | install | start | return_ | lockRelease | release | finish =>
      exact h.quiet (hp.of_same rfl rfl) rfl rfl
  | raise h' fresh =>
      refine h.quiet (hp.of_report rfl rfl nofun ?_) rfl rfl
      intro j percent rest hCalling
      cases fresh.symm.trans hCalling
  | lose h' =>
      refine h.quiet (hp.of_report rfl rfl nofun ?_) rfl rfl
      intro j percent rest hCalling
      cases h'.symm.trans hCalling
  | @deliver r i target percent h' free found =>
      by_cases hk : k = target
      · subst hk
        have hNone (r' j : Nat) (percent' : UInt32)
            (rest : Native (Except Payload (Option (CallbackState σ)))) :
            s.report r' ≠ .calling j percent' k rest := hConsistent.none_calling free
        have hRun := callbackTrampoline_run (callback k) (s.state k) percent
        have hStarted : p = callCallback (callback k) (s.state k) percent :=
          hp.of_called (congrArg (fun rest => Function.update s.report r (.calling i percent k rest)) hRun)
            fun r' j percent' rest _ => hNone r' j percent' rest
        rw [hStarted]
        exact h.deliver hNone
      · refine h.quiet (hp.of_report rfl rfl ?_ ?_) ?_ rfl
        · intro j percent' rest hCalling
          cases hCalling
          exact hk rfl
        · intro j percent' rest hCalling
          cases h'.symm.trans hCalling
        · exact if_neg (Ne.symm hk)
  | @callback r i target percent c next response h' =>
      by_cases hk : k = target
      · subst hk
        -- the callback is inside the trampoline, so the call is one of its own
        obtain ⟨p', hRest⟩ := hConsistent.trampoline r i percent k _ h'
        obtain ⟨next', rfl, hNext'⟩ := trampolined_eq_call hRest.symm
        have hNext : p = next' response :=
          hp.of_called (congrArg (fun rest => Function.update s.report r (.calling i percent k rest))
            (hNext' response)) fun r' _ _ _ hr hCalling => hr (hConsistent.one_calling hCalling h')
        rw [hRest] at h'
        have hSteps := (h k _ (.calling h')).snoc response
        have hSample : (Label.callback k ⟨c, response⟩).sample? k = none := rfl
        have hEvent : (Label.callback k ⟨c, response⟩).event? k = some ⟨c, response⟩ := if_pos rfl
        rw [hNext]
        simpa [loop, samples, events, List.filterMap_append, hSample, hEvent] using hSteps
      · refine h.quiet (hp.of_report rfl rfl ?_ ?_) rfl (if_neg (Ne.symm hk))
        · intro j percent' rest hCalling
          cases hCalling
          exact hk rfl
        · intro j percent' rest hCalling
          cases h'.symm.trans hCalling
          exact hk rfl
  | @deliverEnd r i target percent final h' =>
      by_cases hk : k = target
      · subst hk
        have hFinal : p = .done final := by
          cases hp with
          | @calling r' j percent' p hr' =>
              by_cases hr : r' = r
              · simp [State.setReport, hr] at hr'
              · simp [State.setReport, hr] at hr'
                exact absurd (hConsistent.one_calling hr' h') hr
          | idle hIdle => simp [State.setReport]
        rw [hFinal]
        have hDone : s.report r = .calling i percent k (trampolined (.done final)) := h'
        exact h.quiet (.calling hDone) rfl rfl
      · refine h.quiet (hp.of_report rfl (Function.update_of_ne hk ..) nofun ?_) rfl rfl
        intro j percent' rest hCalling
        cases h'.symm.trans hCalling
        exact hk rfl
  | unwind h' => exact absurd h' hConsistent.no_unwind

/-- By induction on the run. -/
theorem Looping.of_run (run : Run (Step callback) (State.init captured) history s) :
    Looping callback captured history s := by
  induction run with
  | refl =>
      intro i p hp
      cases hp with
      | calling h => cases h
      | idle h => exact .refl _
  | snoc run step ih => exact ih.step (.of_run run) step

/-! ### The outcome -/

/-- The code that the native call of `i` returned, before its lease was released. -/
def Ended (history : List Label) (i : Nat) (code : UInt32) : Prop :=
  ∃ first second third, history = first ++ .return_ i code :: (second ++ .release i :: third)

/-- What the phase of an operation tells about its own steps. -/
def OpPhase.Tells (history : List Label) (i : Nat) (state : CallbackState σ) : OpPhase → Prop
  | .returned code | .releasing code => .return_ i code ∈ history
  | .released code => Ended history i code
  | .finished outcome => ∃ code, Ended history i code ∧
      outcome = match state.panic with
        | some payload => .error payload
        | none => .ok (check code)
  | _ => True

/-- What ended stays ended. -/
theorem Ended.snoc {i : Nat} {code : UInt32} (h : Ended history i code) :
    Ended (history ++ [l]) i code := by
  obtain ⟨first, second, third, rfl⟩ := h
  exact ⟨first, second, third ++ [l], by simp⟩

/-- What a phase tells of the past is not undone. -/
theorem OpPhase.Tells.snoc {i : Nat} {state : CallbackState σ} {phase : OpPhase}
    (h : phase.Tells history i state) : phase.Tells (history ++ [l]) i state := by
  cases phase with
  | returned code | releasing code => exact List.mem_append_left _ h
  | released code => exact Ended.snoc h
  | finished outcome =>
      obtain ⟨code, hEnded, hOutcome⟩ := h
      exact ⟨code, hEnded.snoc, hOutcome⟩
  | _ => trivial

/-- Every operation tells about its own steps. -/
def Telling (history : List Label) (s : State σ) : Prop := ∀ i, (s.op i).Tells history i (s.state i)

/-- A step of an operation. -/
theorem Telling.op_step (h : Telling history s) {i : Nat} {phase : OpPhase}
    (hState : t.state = s.state) (hOp : t.op = Function.update s.op i phase)
    (hPhase : phase.Tells (history ++ [l]) i (s.state i)) : Telling (history ++ [l]) t := by
  intro j
  rw [hState, hOp]
  by_cases hj : j = i
  · rw [hj, Function.update_self]
    exact hPhase
  · rw [Function.update_of_ne hj]
    exact (h j).snoc

/-- Every step keeps what the phases tell. -/
theorem Telling.step (h : Telling history s) (hConsistent : Consistent s)
    (step : Step callback s l t) : Telling (history ++ [l]) t := by
  cases step with
  | tryLock | wouldBlock | occupied | install | start => exact h.op_step rfl rfl trivial
  | return_ => exact h.op_step rfl rfl List.mem_concat_self
  | @lockRelease i code h' =>
      have hReturned := h i
      rw [h'] at hReturned
      exact h.op_step rfl rfl (List.mem_append_left _ hReturned)
  | @release i code h' =>
      have hReturned := h i
      rw [h'] at hReturned
      obtain ⟨first, second, rfl⟩ := List.append_of_mem hReturned
      exact h.op_step rfl rfl ⟨first, second, [], by simp⟩
  | @finish i code h' =>
      have hEnded := h i
      rw [h'] at hEnded
      exact h.op_step rfl rfl ⟨code, Ended.snoc hEnded, rfl⟩
  | raise | deliver | lose | callback | unwind => exact fun i => (h i).snoc
  | @deliverEnd r i target percent final h' =>
      obtain rfl := hConsistent.target r i percent target _ h'
      have hNative : s.op target = .native := hConsistent.pending r target (by rw [h']; rfl)
      intro j
      by_cases hj : j = target
      · subst hj
        change (s.op j).Tells _ _ _
        rw [hNative]
        trivial
      · have hSame : (s.op j).Tells (history ++ [.silent]) j (s.state j) := (h j).snoc
        simpa [State.setReport, hj] using hSame

/-- By induction on the run. -/
theorem Telling.of_run (run : Run (Step callback) (State.init captured) history s) :
    Telling history s := by
  induction run with
  | refl => exact fun i => trivial
  | snoc run step ih => exact ih.step (.of_run run) step

/-- A finished operation has run its loop to the end, and its native call
returned before its lease was released. -/
theorem finished_loop (run : Run (Step callback) (State.init captured) history s) {i : Nat}
    {outcome : Except Payload (SysResult Unit)} (h : s.op i = .finished outcome) :
    (loop callback captured i history).Exec (events i history) (s.state i) ∧
      ∃ code, Ended history i code ∧ outcome = match (s.state i).panic with
        | some payload => .error payload
        | none => .ok (check code) := by
  have hConsistent := Consistent.of_run run
  have hTelling := Telling.of_run run i
  rw [h] at hTelling
  refine ⟨Looping.of_run run i _ (.idle ?_), hTelling⟩
  intro r j percent rest hCalling
  obtain rfl := hConsistent.target r j percent i rest hCalling
  have hNative := hConsistent.pending r i (by rw [hCalling]; rfl)
  rw [h] at hNative
  cases hNative

/-- A finished operation is a run of the sequential program, for a native call
that raised these samples and returned that code. -/
theorem finished_run (run : Run (Step callback) (State.init captured) history s) {i : Nat}
    {outcome : Except Payload (SysResult Unit)} (h : s.op i = .finished outcome) :
    ∃ code, Ended history i code ∧ ∀ (operation : Bool → Native OperationReply) (native : Trace),
      (operation true).Exec native ⟨samples i history, code⟩ →
      (runWithCallback (callback i) (captured i) operation).Exec
        (⟨.installLease, true⟩ :: (native ++ (events i history ++ [⟨.releaseLease, ()⟩])))
        (outcome, (s.state i).captured) := by
  obtain ⟨hLoop, code, hEnded, hOutcome⟩ := finished_loop run h
  refine ⟨code, hEnded, fun operation native hNative => ?_⟩
  unfold runWithCallback
  rw [request_bind, Program.exec_call_iff]
  refine ⟨true, _, rfl, exec_bind_iff.mpr ⟨native, _, _, rfl, hNative, ?_⟩⟩
  refine exec_bind_iff.mpr ⟨_, _, _, rfl, hLoop, ?_⟩
  rw [request_bind, Program.exec_call_iff]
  refine ⟨(), [], rfl, ?_⟩
  rw [hOutcome]
  cases (s.state i).panic <;> exact .refl _

/-! ### Exclusive callbacks -/

variable (callback captured) in
/-- What holds in a state that the history of any operations leads to. -/
structure ExclusiveCallback (history : List Label) (s : State σ) : Prop where
  /-- One operation holds the slot, and it is occupied exactly by its state. -/
  one : ∀ i j, (s.op i).Holds → (s.op j).Holds → i = j
  occupied : s.slot ≠ none ↔ ∃ i, (s.op i).Holds
  pointer : ∀ i, s.slot = some i ↔ (s.op i).Holds
  /-- A report reaches the callback of its own operation and no other. -/
  own_callback : ∀ r i percent target, .deliver r i percent target ∈ history →
    target = i ∧ .raise r i percent ∈ history
  no_report_lost : ∀ r, .lose r ∉ history
  /-- The reports that reached a callback run its closure, one after the other. -/
  delivered : Looping callback captured history s
  all_reported : ∀ r i percent, .raise r i percent ∈ history → s.op i ≠ .native →
    .deliver r i percent i ∈ history
  /-- A refused operation makes no native call, and leaves the slot alone. -/
  refused_native : ∀ i, s.op i = .refused → .start i ∉ history
  refused_slot : ∀ i t, Step callback s (.refuse i) t → t.slot = s.slot ∧ t.state = s.state ∧
    ∀ j, (t.op j).Holds ↔ (s.op j).Holds
  /-- An operation that has returned or unwound has released its lease, and
  its release left the slot free for any other. -/
  released : ∀ i outcome, s.op i = .finished outcome → .release i ∈ history
  /-- What has finished is a run of the method, for a native call that raised
  the delivered samples and returned before the lease was released. -/
  sequential : ∀ i outcome, s.op i = .finished outcome → ∃ code, Ended history i code ∧
    ∀ (operation : Bool → Native OperationReply) (native : Trace),
      (operation true).Exec native ⟨samples i history, code⟩ →
      (runWithCallback (callback i) (captured i) operation).Exec
        (⟨.installLease, true⟩ :: (native ++ (events i history ++ [⟨.releaseLease, ()⟩])))
        (outcome, (s.state i).captured)
  freed : ∀ i t, Step callback s (.release i) t → t.slot = none ∧ t.guard = none ∧
    (∀ j, ¬(t.op j).Holds) ∧ ∀ j, t.op j = .ready →
      ∃ u, Run (Step callback) t [.silent, .silent] u ∧ u.op j = .leased ∧ u.slot = some j

/-- Every clause is read off an invariant of the run: of the mutex and the slot, of the
record, of the loop and of what the phases tell. -/
theorem exclusive_callback (run : Run (Step callback) (State.init captured) history s) :
    ExclusiveCallback callback captured history s := by
  have h := Consistent.of_run run
  have hRecorded := Recorded.of_run run
  constructor
  · intro i j hi hj
    exact Option.some.inj (((h.slot i).mpr hi).symm.trans ((h.slot j).mpr hj))
  · rw [Option.ne_none_iff_exists']
    exact exists_congr h.slot
  · exact h.slot
  · exact hRecorded.delivered
  · exact hRecorded.kept
  · exact Looping.of_run run
  · intro r i percent hMem hReturned
    rcases hRecorded.reached r i percent hMem with hWaiting | hDelivered
    · exact absurd (h.pending r i (by rw [hWaiting]; rfl)) hReturned
    · exact hDelivered
  · intro i hi
    exact hRecorded.unstarted i (by rw [hi]; trivial)
  · intro i t step
    have hNext := (h.step step).slot
    have hSame : t.slot = s.slot ∧ t.state = s.state := by
      cases step with
      | wouldBlock => exact ⟨rfl, rfl⟩
      | occupied => exact ⟨rfl, rfl⟩
    refine ⟨hSame.1, hSame.2, fun j => ?_⟩
    rw [← hNext j, ← h.slot j, hSame.1]
  · intro i outcome hi
    exact hRecorded.closed i (by rw [hi]; trivial)
  · intro i outcome hi
    exact finished_run run hi
  · intro i t step
    have hNext := (h.step step).slot
    have hFree : t.slot = none ∧ t.guard = none := by
      cases step with
      | release => exact ⟨rfl, rfl⟩
    obtain ⟨hSlot, hGuard⟩ := hFree
    refine ⟨hSlot, hGuard, ?_, fun j hReady => ?_⟩
    · intro j
      rw [← hNext j, hSlot]
      nofun
    · have hLocked := @Step.tryLock _ _ callback t j hReady hGuard
      exact ⟨_, .cons hLocked (.cons (.install (by simp [State.setOp]) hSlot) .refl),
        by simp [State.setOp], rfl⟩

end

section

attribute [local instance] Platform.driveLetters

/-- A closure that only counts its reports. -/
def counting : Closure Nat := fun _ count => return (none, count + 1)

/-- An operation that is refused because it starts inside the callback of
another one, which reports once. -/
def nested : List Label :=
  [.silent, .silent, .start 0, .raise 0 0 50, .deliver 0 0 50 0, .refuse 1, .silent,
    .return_ 0 ERROR_SUCCESS, .silent, .release 0, .silent]

theorem exclusive_callback_nested : ∃ s, ExclusiveCallback (fun _ => counting) (fun _ => 0) nested s := by
  have run : ∃ s, Run (Step fun _ => counting) (State.init fun _ => 0) nested s := by
    apply Exists.intro
    apply Run.cons (@Step.tryLock _ _ _ _ 0 rfl rfl)
    apply Run.cons (@Step.install _ _ _ _ 0 rfl rfl)
    apply Run.cons (@Step.start _ _ _ _ 0 rfl)
    apply Run.cons (@Step.raise _ _ _ _ 0 0 50 rfl rfl)
    apply Run.cons (@Step.deliver _ _ _ _ 0 0 0 50 rfl rfl rfl)
    apply Run.cons (@Step.wouldBlock _ _ _ _ 1 rfl (Option.some_ne_none (Guard.report 0)))
    apply Run.cons (@Step.deliverEnd _ _ _ _ 0 0 0 50 _ rfl)
    apply Run.cons (@Step.return_ _ _ _ _ 0 ERROR_SUCCESS rfl ?_)
    apply Run.cons (@Step.lockRelease _ _ _ _ 0 ERROR_SUCCESS rfl rfl)
    apply Run.cons (@Step.release _ _ _ _ 0 ERROR_SUCCESS rfl)
    apply Run.cons (@Step.finish _ _ _ _ 0 ERROR_SUCCESS rfl)
    · exact .refl
    · intro r hPending
      by_cases hr : r = 0
      · subst hr
        exact hPending
      · simp [State.setReport, State.setOp, State.init, hr, ReportPhase.Pending] at hPending
  obtain ⟨s, run⟩ := run
  exact ⟨s, exclusive_callback run⟩

end
end CallbackSlot
end RestartManager
