import RestartManager.ApplicationRestart.Threads
import RestartManager.Interaction.Contract

/-! The command lines that reach Windows. Every thread validates its arguments
before it registers them, and a teardown registers nothing. -/
namespace RestartManager

open Interaction Contract Transition

namespace ApplicationRestart

/-- The command line of arguments that pass validation. No arguments at all
are a null pointer. -/
structure Fitting (commandLine : Option WideString) (arguments : OsString) : Prop where
  bounded : arguments.units.length ≤ MAX_RESTART_ARGUMENT_UNITS
  null : commandLine = none ↔ arguments.units = []
  carries : ∀ wide ∈ commandLine, wide = .new arguments ∧ wide.Carries arguments

theorem fitting_of_valid {arguments : OsString} (h : validateArguments arguments = .ok ()) :
    Fitting (nativeCommandLine arguments) arguments := by
  obtain ⟨hNul, hLength⟩ := validateArguments_eq_ok.mp h
  have hEmpty : (WideString.new arguments).buffer.length = 1 ↔ arguments.units = [] := by
    rw [← List.length_eq_zero_iff]
    simp [WideString.new, OsString.encodeWide]
  unfold nativeCommandLine
  constructor
  case bounded => exact hLength
  case null =>
    rw [← hEmpty]
    simp
  case carries =>
    intro wide hWide
    by_cases hNone : (WideString.new arguments).buffer.length = 1
    · simp [hNone] at hWide
    · simp only [hNone, ↓reduceIte, Option.mem_def, Option.some.injEq] at hWide
      exact ⟨hWide.symm, hWide ▸ WideString.new_carries_iff.mpr hNul⟩

/-- A native registration passes arguments that fit. -/
def CallFits : RestartCall → Prop
  | .registerApplicationRestart commandLine _ => ∃ arguments, Fitting commandLine arguments
  | _ => True

/-! ### Programs -/

section

variable {options : ApplicationRestartOptions} {registration : ApplicationRestartRegistration}

theorem registerApplicationRestart_makes (h : validateArguments options.arguments = .ok ()) :
    Makes CallFits (registerApplicationRestart options.arguments options.nativeFlags) :=
  (makes_request ⟨options.arguments, fitting_of_valid h⟩).bind fun _ => makes_done _

theorem store_makes (value : Bool) :
    Makes CallFits (Program.request (RestartCall.store value) : RestartM Unit) := makes_request trivial

theorem unregisterApplicationRestart_makes : Makes CallFits unregisterApplicationRestart :=
  (makes_request trivial).bind fun _ => makes_done _

theorem register_makes : Makes CallFits (ApplicationRestartRegistration.register options) := by
  unfold ApplicationRestartRegistration.register
  cases hValid : validateArguments options.arguments with
  | error error => exact makes_done _
  | ok value =>
      refine (makes_request trivial).bind fun exchanged => ?_
      cases exchanged with
      | false => exact makes_done _
      | true =>
          refine (registerApplicationRestart_makes hValid).bind fun result => ?_
          cases result with
          | error error => exact (store_makes false).bind fun _ => makes_done _
          | ok value => exact makes_done _

theorem update_makes : Makes CallFits (registration.update options) := by
  unfold ApplicationRestartRegistration.update
  cases hValid : validateArguments options.arguments with
  | error error => exact makes_done _
  | ok value =>
      refine (registerApplicationRestart_makes hValid).bind fun result => ?_
      cases result with
      | error error => exact makes_done _
      | ok value => exact makes_done _

theorem disarm_makes : Makes CallFits registration.disarm :=
  (store_makes false).bind fun _ => makes_done _

theorem drop_makes : Makes CallFits registration.drop := by
  unfold ApplicationRestartRegistration.drop
  split
  · exact unregisterApplicationRestart_makes.bind fun _ => disarm_makes.bind fun _ => makes_done _
  · exact makes_done _

theorem unregister_makes : Makes CallFits registration.unregister := by
  refine unregisterApplicationRestart_makes.bind fun result => ?_
  cases result with
  | error error => exact drop_makes.bind fun _ => makes_done _
  | ok value => exact disarm_makes.bind fun _ => drop_makes.bind fun _ => makes_done _

end

/-! ### Runs -/

/-- What is left of the thread's program makes only such calls. -/
def Phase.Validated : Phase → Prop
  | .registering _ rest => Makes CallFits rest
  | .updating _ _ rest => Makes CallFits rest
  | .unregistering _ rest => Makes CallFits rest
  | .dropping _ rest => Makes CallFits rest
  | .idle | .owning _ | .gone => True

section

variable {s t : State} {l : Label} {windows : Option NativeRegistration} {history : List Label}

/-- Where the thread that moves is left in such a phase, every thread is. -/
theorem validated_update {i : Nat} {phase : Phase} (h : ∀ j, (s.phase j).Validated)
    (hPhase : phase.Validated) : ∀ j, (Function.update s.phase i phase j).Validated := by
  intro j
  by_cases hj : j = i
  · subst hj
    rw [Function.update_self]
    exact hPhase
  · rw [Function.update_of_ne hj]
    exact h j

/-- A step keeps that, and its call is one of these. -/
theorem Step.validated (step : Step s l t) (h : ∀ j, (s.phase j).Validated) :
    (∀ j, (t.phase j).Validated) ∧ ∀ i event, l = .call i event → CallFits event.1 := by
  have hCalled {α : Type} {i : Nat} {c : RestartCall} {response : c.Response} {next : c.Response → RestartM α}
      (hMakes : Makes CallFits (.call c next)) : Makes CallFits (next response) ∧
        ∀ j event, .call i ⟨c, response⟩ = Label.call j event → CallFits event.1 := by
    refine ⟨hMakes.2 response trivial, ?_⟩
    intro j event hEvent
    cases hEvent
    exact hMakes.1
  have hPhaseOf {i : Nat} {phase : Phase} (hPhase : s.phase i = phase) : phase.Validated := hPhase ▸ h i
  cases step with
  | registerCall hPhase answered | updateCall hPhase answered | unregisterCall hPhase answered
  | dropCall hPhase answered =>
      obtain ⟨hNext, hCall⟩ := hCalled (hPhaseOf hPhase)
      exact ⟨validated_update h hNext, hCall⟩
  | register => exact ⟨validated_update h register_makes, by simp⟩
  | update => exact ⟨validated_update h update_makes, by simp⟩
  | unregister => exact ⟨validated_update h unregister_makes, by simp⟩
  | drop => exact ⟨validated_update h drop_makes, by simp⟩
  | registered | refused | updated | unregistered | dropped =>
      exact ⟨validated_update h trivial, by simp⟩

/-- Whatever the threads do, only command lines that fit are registered. -/
theorem callFits_of_run (run : Run Step (.init windows) history s) :
    (∀ j, (s.phase j).Validated) ∧ ∀ i event, .call i event ∈ history → CallFits event.1 := by
  apply @Run.invariant _ _ _ _ _ _
    (fun history s => (∀ j, (s.phase j).Validated) ∧ ∀ i event, .call i event ∈ history → CallFits event.1)
    run
  · refine ⟨fun j => trivial, ?_⟩
    intro i event hMem
    cases hMem
  · intro history s l t h step
    obtain ⟨hPhases, hCall⟩ := step.validated h.1
    refine ⟨hPhases, ?_⟩
    intro i event hMem
    rcases List.mem_append.mp hMem with hMem | hMem
    · exact h.2 i event hMem
    · exact hCall i event (List.mem_singleton.mp hMem).symm

end

end ApplicationRestart
end RestartManager
