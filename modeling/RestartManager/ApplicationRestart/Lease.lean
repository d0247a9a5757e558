import RestartManager.ApplicationRestart.Threads
import RestartManager.Interaction.Mutex

/-! The lease of the registration: its owner is the only thread that calls
Windows, and it clears nothing but what it registered. -/
namespace RestartManager

open Interaction Mutex Program Transition

namespace ApplicationRestart

/-! ### Where a thread can be -/

/-- The registration that Windows keeps is this one, and `i` made it. -/
structure Made (i : Nat) (windows : Option NativeRegistration) (maker : Option Nat)
    (options : ApplicationRestartOptions) : Prop where
  windows_eq : windows = some (.of options)
  maker_eq : maker = some i

/-- The rest of a teardown: a native unregister is tried again only if it
failed, and the flag is released after the last. -/
inductive Tearing {α : Type} : RestartM α → Prop
  | done {result : α} : Tearing (.done result)
  | store {next : Unit → RestartM α} {result : α} (h : next () = .done result) :
      Tearing (.call (.store false) next)
  | ask {next : Int32 → RestartM α} (h : ∀ result, Tearing (next result))
      (busy : ∀ result, ∃ c rest, next result = .call c rest)
      (cleared : ∀ result ≥ 0, ∀ rest, next result ≠ .call .unregisterApplicationRestart rest) :
      Tearing (.call .unregisterApplicationRestart next)

/-- Where `i` can be, given who made what Windows keeps. -/
inductive Fits (i : Nat) (windows : Option NativeRegistration) (maker : Option Nat) : Phase → Prop
  | idle : Fits i windows maker .idle
  | asking {options : ApplicationRestartOptions}
      {next : Bool → RestartM (Except Error ApplicationRestartRegistration)}
      (won : next true = ApplicationRestartRegistration.registerLeased options)
      (lost : next false = .done (.error applicationRestartInUse)) :
      Fits i windows maker (.registering options (.call .compareExchange next))
  | leased {options : ApplicationRestartOptions}
      {next : Int32 → RestartM (Except Error ApplicationRestartRegistration)}
      (made : ∀ result ≥ 0, next result = .done (.ok ⟨options, true⟩))
      (failed : ∀ result, ¬result ≥ 0 → ∃ (error : Error) (rest : Unit → _),
        next result = .call (.store false) rest ∧ rest () = .done (.error error)) :
      Fits i windows maker (.registering options
        (.call (.registerApplicationRestart (nativeCommandLine options.arguments) options.nativeFlags) next))
  | releasing {options : ApplicationRestartOptions} {error : Error}
      {next : Unit → RestartM (Except Error ApplicationRestartRegistration)}
      (h : next () = .done (.error error)) :
      Fits i windows maker (.registering options (.call (.store false) next))
  | refused {options : ApplicationRestartOptions} {error : Error} :
      Fits i windows maker (.registering options (.done (.error error)))
  | registered {options : ApplicationRestartOptions} (made : Made i windows maker options) :
      Fits i windows maker (.registering options (.done (.ok ⟨options, true⟩)))
  | owning {options : ApplicationRestartOptions} (made : Made i windows maker options) :
      Fits i windows maker (.owning ⟨options, true⟩)
  | updating {options new : ApplicationRestartOptions}
      {next : Int32 → RestartM (Except Error Unit × ApplicationRestartRegistration)}
      (current : Made i windows maker options)
      (made : ∀ result ≥ 0, next result = .done (.ok (), ⟨new, true⟩))
      (failed : ∀ result, ¬result ≥ 0 → ∃ error, next result = .done (.error error, ⟨options, true⟩)) :
      Fits i windows maker (.updating ⟨options, true⟩ new
        (.call (.registerApplicationRestart (nativeCommandLine new.arguments) new.nativeFlags) next))
  | updated {options new : ApplicationRestartOptions} (made : Made i windows maker new) :
      Fits i windows maker (.updating ⟨options, true⟩ new (.done (.ok (), ⟨new, true⟩)))
  | unchanged {options new : ApplicationRestartOptions} {error : Error}
      (made : Made i windows maker options) :
      Fits i windows maker (.updating ⟨options, true⟩ new (.done (.error error, ⟨options, true⟩)))
  | unregistering {options : ApplicationRestartOptions} {rest : RestartM (Except Error Unit)}
      (h : Tearing rest)
      (made : ∀ next, rest = .call .unregisterApplicationRestart next → Made i windows maker options) :
      Fits i windows maker (.unregistering ⟨options, true⟩ rest)
  | dropping {options : ApplicationRestartOptions} {rest : RestartM Unit} (h : Tearing rest)
      (made : ∀ next, rest = .call .unregisterApplicationRestart next → Made i windows maker options) :
      Fits i windows maker (.dropping ⟨options, true⟩ rest)
  | gone : Fits i windows maker .gone

/-- Exactly one thread holds the lease while the flag is set. -/
def State.Leased (s : State) : Prop :=
  ∃ holder, s.shared.owned = holder.isSome ∧ Exclusive holder fun i => (s.phase i).Holds

/-- The options of `i` at present are those that it keeps. -/
def Phase.options? : Phase → Option ApplicationRestartOptions
  | .owning registration => some registration.options
  | .updating registration _ _ => some registration.options
  | _ => none

/-- The thread has not asked for the lease, or has not been answered. -/
def Phase.Unanswered : Phase → Prop
  | .idle => True
  | .registering _ (.call .compareExchange _) => True
  | _ => False

/-- The thread has nothing left to do but return an error. -/
def Phase.Lost : Phase → Prop
  | .registering _ (.done (.error _)) => True
  | .gone => True
  | _ => False

structure Consistent (history : List Label) (s : State) : Prop where
  leased : s.Leased
  fits : ∀ i, Fits i s.shared.windows (maker history) (s.phase i)
  current : ∀ i options, (s.phase i).options? = some options → kept i history = some options
  quiet : ∀ i, (s.phase i).Unanswered → ∀ l ∈ history, ¬l.CallsWindows i
  loser : ∀ i, .call i ⟨.compareExchange, false⟩ ∈ history →
    (s.phase i).Lost ∧ ∀ l ∈ history, ¬l.CallsWindows i

/-! ### The programs -/

section

variable {i : Nat} {windows windows' : Option NativeRegistration} {maker maker' : Option Nat}
  {options new : ApplicationRestartOptions} {phase : Phase}

theorem update_eq (h : validateArguments new.arguments = .ok ()) :
    ApplicationRestartRegistration.update ⟨options, true⟩ new =
      .call (.registerApplicationRestart (nativeCommandLine new.arguments) new.nativeFlags)
        fun result => match checkHresult result with
          | .error error => .done (.error (mapSysError error), ⟨options, true⟩)
          | .ok () => .done (.ok (), ⟨new, true⟩) := by
  unfold ApplicationRestartRegistration.update
  rw [h]
  rfl

theorem drop_eq : ApplicationRestartRegistration.drop ⟨options, true⟩ =
    .call .unregisterApplicationRestart fun _ => .call (.store false) fun _ => .done () := rfl

theorem checkHresult_of_nonneg {result : Int32} (h : result ≥ 0) : checkHresult result = .ok () :=
  if_pos h

theorem checkHresult_of_neg {result : Int32} (h : ¬result ≥ 0) :
    checkHresult result = .error (.hresult result) := if_neg h

/-- A failed registration gives the lease back. -/
theorem registerLeased_spec : ∃ next : Int32 → RestartM (Except Error ApplicationRestartRegistration),
    ApplicationRestartRegistration.registerLeased options = .call
      (.registerApplicationRestart (nativeCommandLine options.arguments) options.nativeFlags) next ∧
    (∀ result ≥ 0, next result = .done (.ok ⟨options, true⟩)) ∧
    ∀ result, ¬result ≥ 0 → ∃ (error : Error) (rest : Unit → _),
      next result = .call (.store false) rest ∧ rest () = .done (.error error) := by
  refine ⟨_, rfl, ?_, ?_⟩
  · intro result hResult
    change Program.bind (.done (checkHresult result)) _ = _
    rw [checkHresult_of_nonneg hResult]
    rfl
  · intro result hResult
    change ∃ error rest, Program.bind (.done (checkHresult result)) _ = _ ∧ _
    rw [checkHresult_of_neg hResult]
    exact ⟨_, _, rfl, rfl⟩

/-- A native unregister that failed is tried again by the destructor. -/
theorem unregister_spec : ∃ next : Int32 → RestartM (Except Error Unit),
    ApplicationRestartRegistration.unregister ⟨options, true⟩ =
      .call .unregisterApplicationRestart next ∧
    (∀ result ≥ 0, next result = .call (.store false) fun _ => .done (.ok ())) ∧
    ∀ result, ¬result ≥ 0 → ∃ error, next result = .call .unregisterApplicationRestart fun _ =>
      .call (.store false) fun _ => .done (.error error) := by
  refine ⟨_, rfl, ?_, ?_⟩
  · intro result hResult
    change Program.bind (.done (checkHresult result)) _ = _
    rw [checkHresult_of_nonneg hResult]
    rfl
  · intro result hResult
    change ∃ error, Program.bind (.done (checkHresult result)) _ = _
    rw [checkHresult_of_neg hResult]
    exact ⟨_, rfl⟩

theorem fits_registerLeased : Fits i windows maker
    (.registering options (ApplicationRestartRegistration.registerLeased options)) := by
  obtain ⟨next, hEq, hMade, hFailed⟩ := @registerLeased_spec options
  rw [hEq]
  exact .leased hMade hFailed

theorem fits_register : Fits i windows maker
    (.registering options (ApplicationRestartRegistration.register options)) := by
  unfold ApplicationRestartRegistration.register
  cases validateArguments options.arguments with
  | error error => exact .refused
  | ok value => exact .asking rfl rfl

theorem fits_update (made : Made i windows maker options) : Fits i windows maker
    (.updating ⟨options, true⟩ new (ApplicationRestartRegistration.update ⟨options, true⟩ new)) := by
  cases h : validateArguments new.arguments with
  | error error =>
      unfold ApplicationRestartRegistration.update
      rw [h]
      exact .unchanged made
  | ok value =>
      rw [update_eq h]
      apply Fits.updating made
      · intro result hResult
        rw [checkHresult_of_nonneg hResult]
      · intro result hResult
        rw [checkHresult_of_neg hResult]
        exact ⟨_, rfl⟩

/-- The destructor of an armed registration makes one native call. -/
theorem fits_drop (made : Made i windows maker options) : Fits i windows maker
    (.dropping ⟨options, true⟩ (ApplicationRestartRegistration.drop ⟨options, true⟩)) := by
  rw [drop_eq]
  apply Fits.dropping
  · apply Tearing.ask
    · exact fun result => .store rfl
    · exact fun result => ⟨_, _, rfl⟩
    · intro result hResult rest h
      cases h
  · exact fun next h => made

theorem fits_unregister (made : Made i windows maker options) : Fits i windows maker
    (.unregistering ⟨options, true⟩ (ApplicationRestartRegistration.unregister ⟨options, true⟩)) := by
  obtain ⟨next, hEq, hMade, hFailed⟩ := @unregister_spec options
  rw [hEq]
  apply Fits.unregistering
  · apply Tearing.ask
    · intro result
      by_cases hResult : result ≥ 0
      · rw [hMade result hResult]
        exact .store rfl
      · obtain ⟨error, hAgain⟩ := hFailed result hResult
        rw [hAgain]
        apply Tearing.ask
        · exact fun result => .store rfl
        · exact fun result => ⟨_, _, rfl⟩
        · intro result hResult rest h
          cases h
    · intro result
      by_cases hResult : result ≥ 0
      · exact ⟨_, _, hMade result hResult⟩
      · obtain ⟨error, hAgain⟩ := hFailed result hResult
        exact ⟨_, _, hAgain⟩
    · intro result hResult rest h
      rw [hMade result hResult] at h
      cases h
  · exact fun next h => made

theorem not_holds_register :
    ¬(Phase.registering options (ApplicationRestartRegistration.register options)).Holds := by
  unfold ApplicationRestartRegistration.register
  cases validateArguments options.arguments with
  | error error => exact id
  | ok value => exact id

/-- Only the holder depends on what Windows keeps. -/
theorem Fits.of_not_holds (h : Fits i windows maker phase) (hHolds : ¬phase.Holds) :
    Fits i windows' maker' phase := by
  cases h with
  | idle => exact .idle
  | gone => exact .gone
  | asking won lost => exact .asking won lost
  | refused => exact .refused
  | unregistering h made =>
      apply Fits.unregistering h
      rintro next rfl
      exact absurd ⟨_, _, rfl⟩ hHolds
  | dropping h made =>
      apply Fits.dropping h
      rintro next rfl
      exact absurd ⟨_, _, rfl⟩ hHolds
  | leased | releasing | registered | owning | updating | updated | unchanged =>
      exact absurd trivial hHolds

end

/-! ### Steps -/

def Label.agent : Label → Nat
  | .register i _ | .update i _ | .unregister i | .drop i | .call i _ | .returned i _ _ | .ended i => i

/-- What a step of `i` does to the lease. -/
inductive LeaseChange (s t : State) (i : Nat) (phase : Phase) : Prop
  | keep (owned : t.shared.owned = s.shared.owned) (holds : phase.Holds ↔ (s.phase i).Holds)
  | take (free : s.shared.owned = false) (owned : t.shared.owned = true) (holds : phase.Holds)
  | release (held : (s.phase i).Holds) (owned : t.shared.owned = false) (left : ¬phase.Holds)

/-- What a step of `i` to this phase may do. -/
structure Move (history : List Label) (s : State) (l : Label) (t : State) (i : Nat) (phase : Phase) :
    Prop where
  agent : l.agent = i
  phase_eq : t.phase = Function.update s.phase i phase
  fits : Fits i t.shared.windows (l.makes (maker history)) phase
  windows : (t.shared.windows = s.shared.windows ∧ l.makes (maker history) = maker history) ∨
    (s.phase i).Holds
  lease : LeaseChange s t i phase
  current : ∀ options, phase.options? = some options → (l.kept? i).or (kept i history) = some options
  unanswered : phase.Unanswered → (s.phase i).Unanswered ∧ ¬l.CallsWindows i
  lost : (s.phase i).Lost → phase.Lost ∧ ¬l.CallsWindows i
  loses : l = .call i ⟨.compareExchange, false⟩ → (s.phase i).Unanswered ∧ phase.Lost

section

variable {history : List Label} {s t : State} {l : Label} {i : Nat} {phase : Phase}

/-- A step that begins a method or returns from one. -/
theorem Move.of_local (agent : l.agent = i) (hShared : t.shared = s.shared)
    (phase_eq : t.phase = Function.update s.phase i phase)
    (hMakes : l.makes (maker history) = maker history) (hCalls : ∀ j event, l ≠ .call j event)
    (fits : Fits i s.shared.windows (maker history) phase) (holds : phase.Holds ↔ (s.phase i).Holds)
    (current : ∀ options, phase.options? = some options →
      (l.kept? i).or (kept i history) = some options)
    (unanswered : phase.Unanswered → (s.phase i).Unanswered) (lost : (s.phase i).Lost → phase.Lost) :
    Move history s l t i phase := by
  have hQuiet : ¬l.CallsWindows i := by
    cases l with
    | call j event => exact absurd rfl (hCalls j event)
    | _ => exact id
  exact {
    agent
    phase_eq
    fits := by
      rw [hShared, hMakes]
      exact fits
    windows := .inl ⟨by rw [hShared], hMakes⟩
    lease := .keep (by rw [hShared]) holds
    current
    unanswered := fun h => ⟨unanswered h, hQuiet⟩
    lost := fun h => ⟨lost h, hQuiet⟩
    loses := fun h => absurd h (hCalls _ _) }

theorem after_register_made {shared : Shared} {commandLine : Option WideString} {flags : UInt32}
    {result : Int32} (h : result ≥ 0) :
    shared.after (.registerApplicationRestart commandLine flags) result =
      { shared with windows := some ⟨commandLine, flags⟩ } := if_pos h

theorem after_register_failed {shared : Shared} {commandLine : Option WideString} {flags : UInt32}
    {result : Int32} (h : ¬result ≥ 0) :
    shared.after (.registerApplicationRestart commandLine flags) result = shared := if_neg h

theorem after_unregister_failed {shared : Shared} {result : Int32} (h : ¬result ≥ 0) :
    shared.after .unregisterApplicationRestart result = shared := if_neg h

theorem after_unregister_owned {shared : Shared} {result : Int32} :
    (shared.after .unregisterApplicationRestart result).owned = shared.owned := by
  change (if result ≥ 0 then { shared with windows := none } else shared).owned = shared.owned
  split <;> rfl

theorem Phase.Holds.not_lost (h : phase.Holds) : ¬phase.Lost := by
  intro hLost
  unfold Phase.Lost at hLost
  split at hLost
  · exact h
  · exact h
  · exact hLost

theorem Phase.Holds.not_unanswered (h : phase.Holds) : ¬phase.Unanswered := by
  intro hUnanswered
  unfold Phase.Unanswered at hUnanswered
  split at hUnanswered
  · exact h
  · exact h
  · exact hUnanswered

/-- A call of the thread that holds the lease. -/
theorem Move.of_holder {c : RestartCall} {response : c.Response} (hHolds : (s.phase i).Holds)
    (hCall : c ≠ .compareExchange) (phase_eq : t.phase = Function.update s.phase i phase)
    (fits : Fits i t.shared.windows (Label.makes (maker history) (.call i ⟨c, response⟩)) phase)
    (lease : LeaseChange s t i phase)
    (current : ∀ options, phase.options? = some options → (s.phase i).options? = some options)
    (hCurrent : ∀ options, (s.phase i).options? = some options → kept i history = some options)
    (hAnswered : ¬phase.Unanswered) : Move history s (.call i ⟨c, response⟩) t i phase where
  agent := rfl
  phase_eq := phase_eq
  fits := fits
  windows := .inr hHolds
  lease := lease
  current options hOptions := hCurrent options (current options hOptions)
  unanswered h := absurd h hAnswered
  lost h := absurd h hHolds.not_lost
  loses h := by
    cases h
    exact absurd rfl hCall

/-- A call of `register` takes the lease, or makes no native call. -/
theorem Consistent.registerCall (h : Consistent history s) {options : ApplicationRestartOptions}
    {c : RestartCall} {next : c.Response → RestartM (Except Error ApplicationRestartRegistration)}
    {response : c.Response} (hPhase : s.phase i = .registering options (.call c next))
    (answered : s.shared.Answers c response) :
    Move history s (.call i ⟨c, response⟩) ({ s with shared := s.shared.after c response }.setPhase i
      (.registering options (next response))) i (.registering options (next response)) := by
  have hFits := h.fits i
  rw [hPhase] at hFits
  have hNone (o : ApplicationRestartOptions) (p) : (Phase.registering options p).options? ≠ some o :=
    fun hOptions => absurd hOptions (by simp [Phase.options?])
  cases hFits with
  | asking won lost =>
      have hUnanswered : (s.phase i).Unanswered := by rw [hPhase]; trivial
      have hNotLost : ¬(s.phase i).Lost := by rw [hPhase]; exact id
      cases response with
      | true =>
          have hFree : s.shared.owned = false := by simpa [Shared.Answers] using answered
          rw [won]
          exact {
            agent := rfl
            phase_eq := rfl
            fits := fits_registerLeased
            windows := .inl ⟨rfl, rfl⟩
            lease := .take hFree (Bool.or_true _) trivial
            current := fun o hOptions => absurd hOptions (hNone o _)
            unanswered := fun hFalse => absurd hFalse id
            lost := fun hLost => absurd hLost hNotLost
            loses := fun hLabel => absurd hLabel (by simp) }
      | false =>
          rw [lost]
          exact {
            agent := rfl
            phase_eq := rfl
            fits := .refused
            windows := .inl ⟨rfl, rfl⟩
            lease := .keep (Bool.or_false _) (by rw [hPhase]; exact Iff.rfl)
            current := fun o hOptions => absurd hOptions (hNone o _)
            unanswered := fun hFalse => absurd hFalse id
            lost := fun hLost => absurd hLost hNotLost
            loses := fun _ => ⟨hUnanswered, trivial⟩ }
  | leased made failed =>
      have hHolds : (s.phase i).Holds := by rw [hPhase]; trivial
      by_cases hResult : (response : Int32) ≥ 0
      · rw [after_register_made hResult, made response hResult]
        exact .of_holder hHolds (by simp) rfl (.registered ⟨rfl, if_pos hResult⟩)
          (.keep rfl (iff_of_true trivial hHolds)) (fun o hOptions => absurd hOptions (hNone o _))
          (h.current i) id
      · obtain ⟨error, rest, hNext, hRest⟩ := failed response hResult
        rw [after_register_failed hResult, hNext]
        exact .of_holder hHolds (by simp) rfl (.releasing hRest)
          (.keep rfl (iff_of_true trivial hHolds)) (fun o hOptions => absurd hOptions (hNone o _))
          (h.current i) id
  | releasing hNext =>
      have hHolds : (s.phase i).Holds := by rw [hPhase]; trivial
      rw [hNext]
      exact .of_holder hHolds (by simp) rfl .refused (.release hHolds rfl id)
        (fun o hOptions => absurd hOptions (hNone o _)) (h.current i) id

/-- An update replaces the registration, or leaves everything as it was. -/
theorem Consistent.updateCall (h : Consistent history s) {registration : ApplicationRestartRegistration}
    {options : ApplicationRestartOptions} {c : RestartCall}
    {next : c.Response → RestartM (Except Error Unit × ApplicationRestartRegistration)}
    {response : c.Response} (hPhase : s.phase i = .updating registration options (.call c next)) :
    Move history s (.call i ⟨c, response⟩) ({ s with shared := s.shared.after c response }.setPhase i
      (.updating registration options (next response))) i
      (.updating registration options (next response)) := by
  have hHolds : (s.phase i).Holds := by rw [hPhase]; trivial
  have hOptions (o : ApplicationRestartOptions)
      (hOption : (Phase.updating registration options (next response)).options? = some o) :
      (s.phase i).options? = some o := by
    rw [hPhase]
    exact hOption
  have hFits := h.fits i
  rw [hPhase] at hFits
  cases hFits with
  | updating current made failed =>
      by_cases hResult : (response : Int32) ≥ 0
      · rw [made response hResult] at hOptions ⊢
        rw [after_register_made hResult]
        exact .of_holder hHolds (by simp) rfl (.updated ⟨rfl, if_pos hResult⟩)
          (.keep rfl (iff_of_true trivial hHolds)) hOptions (h.current i) id
      · obtain ⟨error, hNext⟩ := failed response hResult
        rw [hNext] at hOptions ⊢
        rw [after_register_failed hResult]
        have hMade : Made i s.shared.windows
            (Label.makes (maker history) (.call i ⟨.registerApplicationRestart _ _, response⟩)) _ :=
          ⟨current.windows_eq, (if_neg hResult).trans current.maker_eq⟩
        exact .of_holder hHolds (by simp) rfl (.unchanged hMade)
          (.keep rfl (iff_of_true trivial hHolds)) hOptions (h.current i) id

/-- A step of a teardown, which knows what Windows keeps until it has cleared it. -/
theorem Tearing.step {α : Type} {c : RestartCall} {next : c.Response → RestartM α}
    {response : c.Response} {options : ApplicationRestartOptions} {windows : Option NativeRegistration}
    {shared : Shared} {who : Option Nat} (h : Tearing (.call c next))
    (made : ∀ rest, Program.call c next = .call .unregisterApplicationRestart rest →
      Made i shared.windows who options) (hWindows : windows = (shared.after c response).windows) :
    Tearing (next response) ∧ c ≠ .compareExchange ∧
    (∀ rest, next response = .call .unregisterApplicationRestart rest →
      Made i windows (Label.makes who (.call i ⟨c, response⟩)) options) ∧
    (((∃ c' rest, next response = .call c' rest) ∧ (shared.after c response).owned = shared.owned) ∨
      (∃ result, next response = .done result) ∧ (shared.after c response).owned = false) := by
  subst hWindows
  cases h with
  | store hDone =>
      refine ⟨?_, by simp, ?_, ?_⟩
      · rw [hDone]
        exact .done
      · intro rest hRest
        rw [hDone] at hRest
        cases hRest
      · exact .inr ⟨⟨_, hDone⟩, rfl⟩
  | ask hRest busy cleared =>
      refine ⟨hRest response, by simp, ?_, .inl ⟨busy response, after_unregister_owned⟩⟩
      intro rest hAgain
      have hFailed : ¬(response : Int32) ≥ 0 := fun hResult => cleared response hResult rest hAgain
      have hMade := made _ rfl
      rw [after_unregister_failed hFailed]
      exact ⟨hMade.windows_eq, (if_neg hFailed).trans hMade.maker_eq⟩

/-- A teardown gives the lease back when it has nothing left to ask. -/
theorem LeaseChange.of_teardown {α : Type} {rest : RestartM α} (hHolds : (s.phase i).Holds)
    (hPhase : phase.Holds ↔ ∃ c next, rest = .call c next)
    (h : ((∃ c next, rest = .call c next) ∧ t.shared.owned = s.shared.owned) ∨
      (∃ result, rest = .done result) ∧ t.shared.owned = false) : LeaseChange s t i phase := by
  rcases h with ⟨hBusy, hOwned⟩ | ⟨⟨result, hDone⟩, hOwned⟩
  · exact .keep hOwned (iff_of_true (hPhase.mpr hBusy) hHolds)
  · apply LeaseChange.release hHolds hOwned
    intro hBusy
    obtain ⟨c, next, hCall⟩ := hPhase.mp hBusy
    rw [hDone] at hCall
    cases hCall

theorem Consistent.unregisterCall (h : Consistent history s)
    {registration : ApplicationRestartRegistration} {c : RestartCall}
    {next : c.Response → RestartM (Except Error Unit)} {response : c.Response}
    (hPhase : s.phase i = .unregistering registration (.call c next)) :
    Move history s (.call i ⟨c, response⟩) ({ s with shared := s.shared.after c response }.setPhase i
      (.unregistering registration (next response))) i
      (.unregistering registration (next response)) := by
  have hHolds : (s.phase i).Holds := by rw [hPhase]; exact ⟨_, _, rfl⟩
  have hFits := h.fits i
  rw [hPhase] at hFits
  cases hFits with
  | unregistering hTearing made =>
      obtain ⟨hRest, hCall, hMade, hLease⟩ := hTearing.step made rfl
      apply Move.of_holder hHolds hCall rfl (.unregistering hRest hMade) ?_ ?_ (h.current i) id
      · exact .of_teardown hHolds Iff.rfl hLease
      · intro o hOptions
        cases hOptions

theorem Consistent.dropCall (h : Consistent history s) {registration : ApplicationRestartRegistration}
    {c : RestartCall} {next : c.Response → RestartM Unit} {response : c.Response}
    (hPhase : s.phase i = .dropping registration (.call c next)) :
    Move history s (.call i ⟨c, response⟩) ({ s with shared := s.shared.after c response }.setPhase i
      (.dropping registration (next response))) i (.dropping registration (next response)) := by
  have hHolds : (s.phase i).Holds := by rw [hPhase]; exact ⟨_, _, rfl⟩
  have hFits := h.fits i
  rw [hPhase] at hFits
  cases hFits with
  | dropping hTearing made =>
      obtain ⟨hRest, hCall, hMade, hLease⟩ := hTearing.step made rfl
      apply Move.of_holder hHolds hCall rfl (.dropping hRest hMade) ?_ ?_ (h.current i) id
      · exact .of_teardown hHolds Iff.rfl hLease
      · intro o hOptions
        cases hOptions

/-- A call returns, and `i` has a registration that keeps these options. -/
theorem Move.to_owning {options : ApplicationRestartOptions} (agent : l.agent = i)
    (hMakes : l.makes (maker history) = maker history) (hCalls : ∀ j event, l ≠ .call j event)
    (made : Made i s.shared.windows (maker history) options) (hHolds : (s.phase i).Holds)
    (hKept : (l.kept? i).or (kept i history) = some options) :
    Move history s l (s.setPhase i (.owning ⟨options, true⟩)) i (.owning ⟨options, true⟩) := by
  refine .of_local agent rfl rfl hMakes hCalls (.owning made) (iff_of_true trivial hHolds) ?_ ?_ ?_
  · intro o hOptions
    cases hOptions
    exact hKept
  · exact False.elim
  · exact fun hLost => absurd hLost hHolds.not_lost

/-- A call returns and leaves nothing behind. -/
theorem Move.to_gone (agent : l.agent = i) (hMakes : l.makes (maker history) = maker history)
    (hCalls : ∀ j event, l ≠ .call j event) (hHolds : ¬(s.phase i).Holds) :
    Move history s l (s.setPhase i .gone) i .gone := by
  refine .of_local agent rfl rfl hMakes hCalls .gone (iff_of_false id hHolds) ?_ ?_ ?_
  · intro o hOptions
    cases hOptions
  · exact False.elim
  · exact fun _ => trivial

/-- The registration of `i` starts to be torn down. -/
theorem Move.to_teardown {options : ApplicationRestartOptions} (agent : l.agent = i)
    (hMakes : l.makes (maker history) = maker history) (hCalls : ∀ j event, l ≠ .call j event)
    (hPhase : s.phase i = .owning ⟨options, true⟩)
    (fits : Fits i s.shared.windows (maker history) phase) (hHolds : phase.Holds)
    (hNone : phase.options? = none) : Move history s l (s.setPhase i phase) i phase := by
  have hBefore : (s.phase i).Holds := by rw [hPhase]; trivial
  refine .of_local agent rfl rfl hMakes hCalls fits (iff_of_true hHolds hBefore) ?_ ?_ ?_
  · intro o hOptions
    rw [hNone] at hOptions
    cases hOptions
  · exact fun hUnanswered => absurd hUnanswered hHolds.not_unanswered
  · exact fun hLost => absurd hLost hBefore.not_lost

/-- Every step is a move of one thread. -/
theorem Consistent.move (h : Consistent history s) (step : Step s l t) :
    ∃ i phase, Move history s l t i phase := by
  cases step with
  | registerCall hPhase answered => exact ⟨_, _, h.registerCall hPhase answered⟩
  | updateCall hPhase answered => exact ⟨_, _, h.updateCall hPhase⟩
  | unregisterCall hPhase answered => exact ⟨_, _, h.unregisterCall hPhase⟩
  | dropCall hPhase answered => exact ⟨_, _, h.dropCall hPhase⟩
  | @register i options hPhase =>
      refine ⟨i, _, .of_local rfl rfl rfl rfl (fun _ _ => by simp) fits_register ?_ ?_ ?_ ?_⟩
      · rw [hPhase]
        exact iff_of_false not_holds_register id
      · intro o hOptions
        cases hOptions
      · rw [hPhase]
        exact fun _ => trivial
      · rw [hPhase]
        exact False.elim
  | @registered i options registration hPhase =>
      have hHolds : (s.phase i).Holds := by rw [hPhase]; trivial
      have hFits := h.fits i
      rw [hPhase] at hFits
      cases hFits with
      | registered made =>
          exact ⟨i, _, .to_owning rfl rfl (fun _ _ => by simp) made hHolds (by simp [Label.kept?])⟩
  | @refused i options error hPhase =>
      have hHolds : ¬(s.phase i).Holds := by rw [hPhase]; exact id
      exact ⟨i, _, .to_gone rfl rfl (fun _ _ => by simp) hHolds⟩
  | @update i registration options hPhase =>
      have hHolds : (s.phase i).Holds := by rw [hPhase]; trivial
      have hFits := h.fits i
      have hCurrent := h.current i
      rw [hPhase] at hFits hCurrent
      cases hFits with
      | owning made =>
          refine ⟨i, _, .of_local rfl rfl rfl rfl (fun _ _ => by simp) (fits_update made) ?_ hCurrent
            False.elim ?_⟩
          · exact iff_of_true trivial hHolds
          · exact fun hLost => absurd hLost hHolds.not_lost
  | @updated i registration registration' options result hPhase =>
      have hHolds : (s.phase i).Holds := by rw [hPhase]; trivial
      have hFits := h.fits i
      have hCurrent := h.current i
      rw [hPhase] at hFits hCurrent
      cases hFits with
      | updated made =>
          exact ⟨i, _, .to_owning rfl rfl (fun _ _ => by simp) made hHolds (by simp [Label.kept?])⟩
      | unchanged made =>
          exact ⟨i, _, .to_owning rfl rfl (fun _ _ => by simp) made hHolds (hCurrent _ rfl)⟩
  | @unregister i registration hPhase =>
      have hFits := h.fits i
      rw [hPhase] at hFits
      cases hFits with
      | owning made =>
          exact ⟨i, _, .to_teardown rfl rfl (fun _ _ => by simp) hPhase (fits_unregister made)
            ⟨_, _, rfl⟩ rfl⟩
  | @unregistered i registration result hPhase =>
      have hHolds : ¬(s.phase i).Holds := by
        rw [hPhase]
        exact fun ⟨c, rest, hCall⟩ => by cases hCall
      exact ⟨i, _, .to_gone rfl rfl (fun _ _ => by simp) hHolds⟩
  | @drop i registration hPhase =>
      have hFits := h.fits i
      rw [hPhase] at hFits
      cases hFits with
      | owning made =>
          exact ⟨i, _, .to_teardown rfl rfl (fun _ _ => by simp) hPhase (fits_drop made)
            ⟨_, _, rfl⟩ rfl⟩
  | @dropped i registration hPhase =>
      have hHolds : ¬(s.phase i).Holds := by
        rw [hPhase]
        exact fun ⟨c, rest, hCall⟩ => by cases hCall
      exact ⟨i, _, .to_gone rfl rfl (fun _ _ => by simp) hHolds⟩

end

end ApplicationRestart
end RestartManager
