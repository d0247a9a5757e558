import RestartManager.Interaction.Transition
import RestartManager.Session.RetainedOutcomes

/-! Operations that were refused because another callback was in use. They make
no native call and hand back what they were given, so that a run with refused
attempts is a run without them. -/
namespace RestartManager

open Interaction Contract Program Transition

/-- A method refuses exactly when the lease is not installed, and then does
nothing but hand back what it was given. -/
structure RefusesExactly [Platform] {α : Type} (method : Native α) (Refused : α → Prop)
    (handedBack : α) : Prop where
  unless_installed : ∀ trace result, method.Exec trace result →
    (Refused result ↔ ⟨.installLease, false⟩ ∈ trace)
  untouched : ∀ trace result, method.Exec trace result → Refused result →
    trace = [⟨.installLease, false⟩] ∧ nativeTrace trace = [] ∧ result = handedBack
  possible : method.Exec [⟨.installLease, false⟩] handedBack

variable [Platform]

/-! ### The methods -/

section

variable {T α : Type} {callback : Callback} {native : OperationReply → Event}
  {handedBack : OperationNotStarted T} {completed : OperationReply → Except (OperationNotStarted T) α}
  {abandoned : Native Unit}

/-- The lease is asked for once, before the native call. -/
theorem ProgressRun.installed {trace : Trace} {result : Except Payload (Except (OperationNotStarted T) α)}
    (hNative : ∀ reply, (native reply).1 ≠ .installLease)
    (hAbandoned : Makes (· ≠ .installLease) abandoned)
    (run : ProgressRun callback native (.error handedBack) completed abandoned trace result) :
    (trace = [⟨.installLease, false⟩] ∧ result = .ok (.error handedBack)) ∨
      (⟨.installLease, false⟩ ∉ trace ∧
        ((∃ reply, result = .ok (completed reply)) ∨ ∃ payload, result = .error payload)) := by
  have hDelivered (values : List Progress) :
      ⟨.installLease, false⟩ ∉ values.map callback.delivered := by
    intro hMem
    obtain ⟨progress, -, h⟩ := List.mem_map.mp hMem
    cases callback <;> cases h
  have hNot (reply : OperationReply) : ⟨.installLease, false⟩ ≠ native reply :=
    fun h => hNative reply (congrArg Sigma.fst h.symm)
  cases run with
  | refused => exact .inl ⟨rfl, rfl⟩
  | @completed reply =>
      refine .inr ⟨?_, .inl ⟨reply, rfl⟩⟩
      simp [hDelivered, hNot]
  | @panicked reply before rest progress payload recovery reached user dropped =>
      have hRecovery : ⟨.installLease, false⟩ ∉ recovery :=
        fun hMem => hAbandoned.events dropped _ hMem rfl
      refine .inr ⟨?_, .inr ⟨payload, rfl⟩⟩
      simp [hDelivered, hNot, hRecovery, RestartManager.panicked]

theorem refusesExactly {method : Native (Except Payload (Except (OperationNotStarted T) α))}
    (hMethod : ∀ trace result, method.Exec trace result ↔
      ProgressRun callback native (.error handedBack) completed abandoned trace result)
    (hNative : ∀ reply, (native reply).1 ≠ .installLease)
    (hAbandoned : Makes (· ≠ .installLease) abandoned)
    (hCompleted : ∀ reply error, completed reply ≠ .error error) :
    RefusesExactly method (fun result => ∃ error, result = .ok (.error error))
      (.ok (.error handedBack)) where
  unless_installed trace result run := by
    rcases ((hMethod _ _).mp run).installed hNative hAbandoned with ⟨rfl, rfl⟩ | ⟨hTrace, hResult⟩
    · simp
    · refine iff_of_false ?_ hTrace
      rintro ⟨error, rfl⟩
      rcases hResult with ⟨reply, h⟩ | ⟨payload, h⟩
      · exact hCompleted reply error (Except.ok.inj h).symm
      · cases h
  untouched trace result run hRefused := by
    rcases ((hMethod _ _).mp run).installed hNative hAbandoned with ⟨rfl, rfl⟩ | ⟨hTrace, hResult⟩
    · exact ⟨rfl, rfl, rfl⟩
    · obtain ⟨error, rfl⟩ := hRefused
      rcases hResult with ⟨reply, h⟩ | ⟨payload, h⟩
      · exact absurd (Except.ok.inj h).symm (hCompleted reply error)
      · cases h
  possible := (hMethod _ _).mpr .refused

end

theorem pending_drop_makes (core : SessionCore) (shutdown : Option OperationOutcome) :
    Makes (· ≠ .installLease) (RestartPending.mk (some core) shutdown).drop := by
  refine ⟨Call.noConfusion, fun reply _ => ?_⟩
  exact (makes_handle_drop core.handle).mono fun c h => by
    rw [h]
    exact Call.noConfusion

theorem shutdownWithProgress_refuses (session : RestartSession) (options : ShutdownOptions)
    (callback : Callback) :
    RefusesExactly (session.shutdownWithProgress options callback).run
      (fun result => ∃ error, result = .ok (.error error))
      (.ok (.error ⟨session, callbackInUseError⟩)) :=
  refusesExactly (fun _ _ => exec_shutdownWithProgress_iff) (fun _ => Call.noConfusion)
    (pending_drop_makes _ _) fun _ _ => by simp

theorem restartWithProgress_refuses (core : SessionCore) (shutdown : OperationOutcome)
    (callback : Callback) :
    RefusesExactly ((RestartPending.mk (some core) (some shutdown)).restartWithProgress callback).run
      (fun result => ∃ error, result = .ok (.error error))
      (.ok (.error ⟨⟨some core, some shutdown⟩, callbackInUseError⟩)) :=
  refusesExactly (fun _ _ => exec_restartWithProgress_iff) (fun _ => Call.noConfusion)
    (pending_drop_makes _ _) fun _ _ => by simp

/-! ### Runs of operations -/

/-- An operation in a run, with its exchange and what it returned. -/
structure Performance where
  op : Op
  trace : Trace
  output : Output

/-- The operation takes what is held to the next value. -/
def Performs (value : Value) (performance : Performance) (value' : Value) : Prop :=
  ∃ p, perform value performance.op = some p ∧
    p.Exec performance.trace (value', performance.output)

/-- The operations that take a progress callback. -/
inductive Op.TakesProgress : Op → Prop
  | shutdown (options : ShutdownOptions) (callback : Callback) :
      TakesProgress (.shutdownWithProgress options callback)
  | restart (callback : Callback) : TakesProgress (.restartWithProgress callback)

/-- A refused attempt, after which the state is taken out of its error. -/
def refusedAttempt (op : Op) : List Performance :=
  [⟨op, [⟨.installLease, false⟩], .notStarted callbackInUseError⟩, ⟨.intoParts, [], .state⟩]

def RefusedAttempt (loop : List Performance) : Prop :=
  ∃ op : Op, op.TakesProgress ∧ loop = refusedAttempt op

/-- A value that a session can be in. -/
def Value.Reached (value : Value) : Prop := ∃ m : Monitor, value.Fits m

section

variable {value value' : Value} {op : Op} {performance : Performance} {m : Monitor}

theorem Performs.reached (h : Performs value performance value') (hReached : value.Reached) :
    value'.Reached := by
  obtain ⟨p, method, run⟩ := h
  obtain ⟨m, hFits⟩ := hReached
  exact ⟨_, (admits_run run (wp_perform hFits method)).2⟩

theorem exec_consuming_iff {α : Type} {method : UnwindM α} {next : α → Value × Output}
    {trace : Trace} {result : Value × Output} :
    (consuming method next).Exec trace result ↔ ∃ r, method.run.Exec trace r ∧ result = match r with
      | .ok a => next a
      | .error payload => (.gone, .panicked payload) := by
  constructor
  · exact exec_consuming
  · intro h
    obtain ⟨r, run, rfl⟩ := h
    refine exec_bind_iff.mpr ⟨trace, [], r, (List.append_nil _).symm, run, ?_⟩
    cases r <;> exact .refl _

/-- A consuming method on a busy slot. -/
theorem exec_refused_iff {T α : Type} {handedBack : OperationNotStarted T}
    {method : UnwindM (Except (OperationNotStarted T) α)}
    {next : Except (OperationNotStarted T) α → Value × Output} {result : Value × Output}
    (h : RefusesExactly method.run (fun result => ∃ error, result = .ok (.error error))
      (.ok (.error handedBack))) :
    (consuming method next).Exec [⟨.installLease, false⟩] result ↔ result = next (.error handedBack) := by
  rw [exec_consuming_iff]
  constructor
  · intro hExec
    obtain ⟨r, run, rfl⟩ := hExec
    have hRefused := (h.unless_installed _ _ run).mpr List.mem_cons_self
    obtain ⟨-, -, rfl⟩ := h.untouched _ _ run hRefused
    rfl
  · intro hResult
    exact ⟨_, h.possible, hResult⟩

/-- A refused attempt can be made wherever the session has the method, and
leads back to the value that it was made on. -/
theorem refusedAttempt_iff (hFits : value.Fits m) (hOp : op.TakesProgress) :
    Run Performs value (refusedAttempt op) value' ↔ (perform value op).isSome ∧ value' = value := by
  have hAttempt {refusal : Value} (hParts : perform refusal .intoParts =
      some (return (value, .state))) (hMethod : ∀ p, perform value op = some p → ∀ result,
        p.Exec [⟨.installLease, false⟩] result ↔ result = (refusal, .notStarted callbackInUseError)) :
      Run Performs value (refusedAttempt op) value' ↔ (perform value op).isSome ∧ value' = value := by
    constructor
    · intro run
      obtain ⟨middle, ⟨p, method, attempt⟩, rest⟩ := run.of_cons
      obtain ⟨final, ⟨p', method', parts⟩, done⟩ := rest.of_cons
      obtain ⟨rfl, -⟩ := Prod.mk.inj ((hMethod p method _).mp attempt)
      obtain rfl := Option.some.inj (hParts.symm.trans method')
      obtain ⟨-, hFinal⟩ := exec_done_iff.mp parts
      obtain ⟨rfl, -⟩ := Prod.mk.inj hFinal
      exact ⟨Option.isSome_iff_exists.mpr ⟨p, method⟩, done.of_nil⟩
    · intro h
      obtain ⟨hSome, rfl⟩ := h
      obtain ⟨p, method⟩ := Option.isSome_iff_exists.mp hSome
      exact .cons ⟨p, method, (hMethod p method _).mpr rfl⟩
        (.cons ⟨_, hParts, .refl _⟩ .refl)
  have hMissing (hNone : perform value op = none) :
      Run Performs value (refusedAttempt op) value' ↔ (perform value op).isSome ∧ value' = value := by
    refine iff_of_false ?_ (by simp [hNone])
    intro run
    obtain ⟨middle, ⟨p, method, attempt⟩, rest⟩ := run.of_cons
    rw [hNone] at method
    cases method
  cases hOp with
  | shutdown options callback =>
      cases hFits with
      | @session session hOpen =>
          apply @hAttempt (.shutdownNotStarted ⟨session, callbackInUseError⟩) rfl
          intro p method result
          cases method
          exact exec_refused_iff (shutdownWithProgress_refuses session options callback)
      | _ => exact hMissing rfl
  | restart callback =>
      cases hFits with
      | @pending core outcome hOpen =>
          apply @hAttempt (.restartNotStarted ⟨⟨some core, some outcome⟩, callbackInUseError⟩) rfl
          intro p method result
          cases method
          exact exec_refused_iff (restartWithProgress_refuses core outcome callback)
      | _ => exact hMissing rfl

/-- A run with refused attempts is a run without them. -/
theorem erase_refusedAttempts {short long : List Performance} (h : Inserted RefusedAttempt short long)
    (hReached : value.Reached) (run : Run Performs value long value') :
    Run Performs value short value' := by
  apply h.erase (fun s l t hs step => step.reached hs) _ hReached run
  intro loop s t hLoop hs run
  obtain ⟨op, hOp, rfl⟩ := hLoop
  obtain ⟨m, hFits⟩ := hs
  exact ((refusedAttempt_iff hFits hOp).mp run).2

/-- The refused attempts that can be made on a value. -/
def Refuses (value : Value) (loop : List Performance) : Prop :=
  ∃ op : Op, op.TakesProgress ∧ (perform value op).isSome ∧ loop = refusedAttempt op

/-- A run without refused attempts is a run with any number of them. -/
theorem insert_refusedAttempts {short long : List Performance}
    (h : Detours Performs Refuses value short long value') (hReached : value.Reached) :
    Run Performs value long value' := by
  apply h.long_run (fun s l t hs step => step.reached hs) _ hReached
  intro s loop hLoop hs
  obtain ⟨op, hOp, hMethod, rfl⟩ := hLoop
  obtain ⟨m, hFits⟩ := hs
  exact (refusedAttempt_iff hFits hOp).mpr ⟨hMethod, rfl⟩

end

/-! ### What is seen of a run -/

/-- The calls that Windows sees, and the outcomes that are shown. -/
def seenTrace (performances : List Performance) : Trace :=
  performances.flatMap fun performance => nativeTrace performance.trace

def seenOutcomes (performances : List Performance) : List OperationOutcome :=
  performances.flatMap fun performance => performance.output.shutdown?.toList

def seenRecoveries (performances : List Performance) : List RecoveryOutcome :=
  performances.flatMap fun performance => performance.output.recovery?.toList

theorem refusedAttempt_unseen {loop : List Performance} (h : RefusedAttempt loop) :
    seenTrace loop = [] ∧ seenOutcomes loop = [] ∧ seenRecoveries loop = [] := by
  obtain ⟨op, -, rfl⟩ := h
  exact ⟨rfl, rfl, rfl⟩

theorem inserted_seen {short long : List Performance} (h : Inserted RefusedAttempt short long) :
    seenTrace long = seenTrace short ∧ seenOutcomes long = seenOutcomes short ∧
      seenRecoveries long = seenRecoveries short :=
  ⟨h.flatMap_eq fun _ hLoop => (refusedAttempt_unseen hLoop).1,
    h.flatMap_eq fun _ hLoop => (refusedAttempt_unseen hLoop).2.1,
    h.flatMap_eq fun _ hLoop => (refusedAttempt_unseen hLoop).2.2⟩

end RestartManager
