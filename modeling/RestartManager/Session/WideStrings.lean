import RestartManager.Session.Recovery

/-! The strings that a session passes to Windows. Validation looks at the bytes
of a string and Windows at its units, up to the first NUL. Every string that
was validated is read there as it was meant. -/
namespace RestartManager

open Interaction Contract

/-! ### Strings of calls -/

/-- A value that passes the validation has no NUL. -/
theorem validateOsValue_nulFree {value : OsString} {description : String} {kind : ErrorKind}
    (h : validateOsValue value description kind = .ok ()) : 0 ∉ value.units :=
  (validateOsValue_eq_ok.mp h).2

/-- The digits of a key are not NUL. -/
theorem SessionKey.asStr_nulFree (key : SessionKey) : 0 ∉ key.asStr.units := by
  intro hMem
  obtain ⟨byte, hByte, hZero⟩ := List.mem_map.mp hMem
  have hDigits := (Bool.and_eq_true _ _).mp key.valid
  have hDigit := List.all_eq_true.mp hDigits.2 byte hByte
  have hNul : byte = 0 := UInt8.toUInt16_inj.mp hZero
  rw [hNul] at hDigit
  simp [isAsciiHexdigit] at hDigit

/-- The strings that a call passes to Windows. -/
def Call.strings : Call → List WideString
  | .rmJoinSession key => [key]
  | .rmRegisterResources _ _ files _ _ _ services => files.getD [] ++ services.getD []
  | .rmAddFilter _ filename _ service _ => filename.toList ++ service.toList
  | .rmRemoveFilter _ filename _ service => filename.toList ++ service.toList
  | _ => []

variable [Platform]

/-! ### The promise of the standard library -/

/-- What the standard library promises of a path without a NUL. -/
def AddsNoNul (trace : Trace) : Prop :=
  ∀ path absolute, (⟨.pathAbsolute path, .ok absolute⟩ : Event) ∈ trace →
    0 ∉ path.units → 0 ∉ absolute.units

/-- The same promise, for a program that passes no string with another NUL. -/
def stringContract : Contract Call.Response Unit where
  guarantee _ c := ∀ wide ∈ c.strings, wide.Whole
  rely _ c := match c with
    | .pathAbsolute path => fun response =>
        ∀ absolute, response = .ok absolute → 0 ∉ path.units → 0 ∉ absolute.units
    | _ => fun _ => True
  next _ _ _ := ()

/-- The systems that add no NUL are those the contract relies on. -/
theorem stringContract_conforms {trace : Trace} (h : AddsNoNul trace) :
    stringContract.Conforms () trace := by
  induction trace with
  | nil => trivial
  | cons event trace ih =>
      refine ⟨?_, ih fun path absolute hMem => h path absolute (List.mem_cons_of_mem _ hMem)⟩
      obtain ⟨c, response⟩ := event
      cases c with
      | pathAbsolute path =>
          intro absolute hResponse
          cases hResponse
          exact h path absolute List.mem_cons_self
      | _ => trivial

/-- No call of the run passes a string that Windows would truncate. -/
def PassesWhole (trace : Trace) : Prop := ∀ event ∈ trace, ∀ wide ∈ event.1.strings, wide.Whole

theorem PassesWhole.append {first second : Trace} (hFirst : PassesWhole first)
    (hSecond : PassesWhole second) : PassesWhole (first ++ second) := by
  intro event hMem
  rcases List.mem_append.mp hMem with hMem | hMem
  · exact hFirst event hMem
  · exact hSecond event hMem

theorem AddsNoNul.of_append {first second : Trace} (h : AddsNoNul (first ++ second)) :
    AddsNoNul first ∧ AddsNoNul second := by
  constructor
  · intro path absolute hMem
    exact h path absolute (List.mem_append_left _ hMem)
  · intro path absolute hMem
    exact h path absolute (List.mem_append_right _ hMem)

/-- A trace within the contract passes every string whole. -/
theorem whole_of_respects {trace : Trace} (h : stringContract.Respects () trace) :
    PassesWhole trace := by
  induction trace with
  | nil =>
      intro event hMem
      cases hMem
  | cons event trace ih =>
      intro event' hMem
      rcases List.mem_cons.mp hMem with rfl | hMem
      · exact h.1
      · exact ih h.2 event' hMem

/-- A program that keeps the contract passes whole strings at any moment. -/
theorem whole_of_steps {α : Type} {p q : Native α} {Q : α → Unit → Prop} {trace : Trace}
    (run : p.Steps trace q) (h : stringContract.wp p Q ()) (std : AddsNoNul trace) :
    PassesWhole trace :=
  whole_of_respects (stringContract.wp_steps run h (stringContract_conforms std)).1

/-- A program that passes no strings keeps the contract. -/
theorem wp_of_silent {α : Type} {P : Call → Prop} {p : Native α} (h : Makes P p)
    (hP : ∀ c, P c → c.strings = []) : stringContract.wp p (fun _ _ => True) () := by
  have hIgnores : stringContract.Ignores () P := by
    intro c hc
    refine ⟨?_, fun _ _ => rfl⟩
    intro wide hMem
    rw [hP c hc] at hMem
    cases hMem
  exact wp_mono _ (wp_of_makes _ h hIgnores) fun _ _ _ => trivial

/-! ### Registration -/

/-- A path that is made absolute has no NUL, as it was validated before. -/
theorem wp_absoluteUserPath_nulFree (path : PathBuf) (description : String) :
    stringContract.wp (absoluteUserPath path description).run
      (fun result _ => ∀ absolute, result = .ok absolute → 0 ∉ absolute.units) () :=
  wp_absoluteUserPath_of description (fun _ hMem => absurd hMem List.not_mem_nil)
    fun hNul absolute hResponse => hResponse absolute rfl hNul

/-- The validation comes before the path is made absolute, and that adds no NUL. -/
theorem wp_validateAndAbsoluteFile (path : PathBuf) :
    stringContract.wp (validateAndAbsoluteFile path).run
      (fun result _ => ∀ absolute, result = .ok absolute → 0 ∉ absolute.units) () := by
  unfold validateAndAbsoluteFile
  rw [wp_run_bind]
  apply wp_mono _ (wp_absoluteUserPath_nulFree path "a file path")
  intro result s hResult
  cases result with
  | error error =>
      intro absolute h
      cases h
  | ok absolute =>
      apply (wp_run_bind _ _ _ _ _).mpr
      refine ⟨fun wide hMem => absurd hMem List.not_mem_nil, fun isDir _ => ?_⟩
      cases isDir with
      | true =>
          intro absolute h
          cases h
      | false =>
          intro absolute' h
          cases h
          exact hResult absolute rfl

/-- The adapter passes the images of the lists it is given. -/
theorem wp_handle_registerResources {handle : SessionHandle} {files : List PathBuf}
    {processes : List RawUniqueProcess} {services : List OsString}
    (hFiles : ∀ path ∈ files, 0 ∉ path.units) (hServices : ∀ name ∈ services, 0 ∉ name.units) :
    stringContract.wp (handle.registerResources files processes services).run (fun _ _ => True) () := by
  have hImages {values : List OsString} (h : ∀ value ∈ values, 0 ∉ value.units) :
      ∀ wide ∈ (pointerOrNull (values.map WideString.new)).getD [], wide.Whole := by
    unfold pointerOrNull
    split
    · intro wide hMem
      cases hMem
    · intro wide hMem
      obtain ⟨value, hValue, rfl⟩ := List.mem_map.mp hMem
      exact WideString.whole_new (h value hValue)
  unfold SessionHandle.registerResources
  rw [wp_run_bind, wp_ofResult]
  cases count files.length with
  | error error => trivial
  | ok fileCount =>
      dsimp only
      rw [wp_run_bind, wp_ofResult]
      cases count processes.length with
      | error error => trivial
      | ok processCount =>
          dsimp only
          rw [wp_run_bind, wp_ofResult]
          cases count services.length with
          | error error => trivial
          | ok serviceCount =>
              dsimp only
              rw [wp_run_bind, wp_sysCall]
              refine ⟨fun wide hMem => ?_, fun _ _ => trivial⟩
              rcases List.mem_append.mp hMem with hMem | hMem
              · exact hImages hFiles wide hMem
              · exact hImages hServices wide hMem

/-- Every string of a batch is validated before the one native call. -/
theorem SessionCore.wp_registerResources (core : SessionCore) (resources : ResourceBatch) :
    stringContract.wp (core.registerResources resources).run (fun _ _ => True) () := by
  unfold SessionCore.registerResources
  split
  · trivial
  · have hFile (path : PathBuf) (s : Unit) (_ : True) :
        stringContract.wp (validateAndAbsoluteFile path).run
          (fun result _ => True ∧ ∀ absolute, result = .ok absolute → 0 ∉ absolute.units) s :=
      wp_mono _ (wp_validateAndAbsoluteFile path) fun _ _ h => ⟨trivial, h⟩
    have hService (name : OsString) (s : Unit) (_ : True) :
        stringContract.wp (do
          ofResult (validateUserOsValue name "a service short name")
          return name : CrateM OsString).run
          (fun result _ => True ∧ ∀ value, result = .ok value → 0 ∉ value.units) s := by
      rw [wp_run_bind, wp_ofResult]
      cases hValid : validateUserOsValue name "a service short name" with
      | error error =>
          refine ⟨trivial, ?_⟩
          intro value h
          cases h
      | ok _ =>
          refine ⟨trivial, ?_⟩
          intro value h
          cases h
          exact validateOsValue_nulFree hValid
    rw [wp_run_bind]
    apply wp_mono _ (wp_run_mapM _ hFile trivial)
    intro files s hFiles
    cases files with
    | error error => trivial
    | ok files =>
        apply (wp_run_bind _ _ _ _ _).mpr
        apply wp_mono _ (wp_run_mapM _ hService trivial)
        intro services s' hServices
        cases services with
        | error error => trivial
        | ok services =>
            apply (wp_mapErr _ _ _ _ _).mpr
            exact wp_handle_registerResources (hFiles.2 files rfl) (hServices.2 services rfl)

/-! ### Filters -/

/-- The targets that exist: each comes from a constructor of the crate. -/
inductive FilterTarget.Constructed : FilterTarget → Prop
  | executable {path : PathBuf} {trace : Trace} {target : FilterTarget}
      (run : (FilterTarget.executable path).run.Exec trace (.ok target)) (std : AddsNoNul trace) :
      Constructed target
  | process (process : ProcessIdentity) : Constructed (.process process)
  | service {name : OsString} {target : FilterTarget} (h : FilterTarget.service name = .ok target) :
      Constructed target
  | rawExecutable {path : PathBuf} {target : FilterTarget}
      (h : FilterTarget.fromRawExecutable path = .ok target) : Constructed target
  | rawProcess (process : ProcessIdentity) : Constructed (.fromRawProcess process)
  | rawService {name : OsString} {target : FilterTarget}
      (h : FilterTarget.fromRawService name = .ok target) : Constructed target

/-- Neither the path nor the name of the target has a NUL. -/
def FilterTarget.NulFree (target : FilterTarget) : Prop :=
  (∀ path, target.asExecutable = some path → 0 ∉ path.units) ∧
    ∀ name, target.asService = some name → 0 ∉ name.units

namespace FilterTarget

omit [Platform] in
theorem nulFree_executable {path : PathBuf} (h : 0 ∉ path.units) : NulFree ⟨.executable path⟩ := by
  constructor
  · intro path' hPath
    cases hPath
    exact h
  · intro name hName
    cases hName

omit [Platform] in
theorem nulFree_process (process : ProcessIdentity) : NulFree ⟨.process process⟩ := by
  constructor <;> intro value hValue <;> cases hValue

omit [Platform] in
theorem nulFree_service {name : OsString} (h : 0 ∉ name.units) : NulFree ⟨.service name⟩ := by
  constructor
  · intro path hPath
    cases hPath
  · intro name' hName
    cases hName
    exact h

/-- A filter of an executable names a path without NUL. -/
theorem wp_executable (path : PathBuf) : stringContract.wp (FilterTarget.executable path).run
    (fun result _ => ∀ target, result = .ok target → target.NulFree) () := by
  unfold executable
  rw [wp_run_bind]
  apply wp_mono _ (wp_absoluteUserPath_nulFree path "an executable path")
  intro result s hResult
  cases result with
  | error error =>
      intro target h
      cases h
  | ok absolute =>
      intro target h
      cases h
      exact nulFree_executable (hResult absolute rfl)

/-- Every target that the constructors hand out can be passed whole. -/
theorem Constructed.nulFree {target : FilterTarget} (h : target.Constructed) : target.NulFree := by
  cases h with
  | @executable path trace target run std =>
      exact (wp_exec _ run (wp_executable path) (stringContract_conforms std)).2 target rfl
  | process process => exact nulFree_process process
  | @service name target h =>
      obtain ⟨hValid, rfl⟩ := validated_eq_ok.mp h
      exact nulFree_service (validateOsValue_nulFree hValid)
  | @rawExecutable path target h =>
      obtain ⟨hValid, rfl⟩ := validated_eq_ok.mp h
      exact nulFree_executable (validateAbsoluteOsPath_eq_ok.mp hValid).2.1
  | rawProcess process => exact nulFree_process process
  | @rawService name target h =>
      obtain ⟨hValid, rfl⟩ := validated_eq_ok.mp h
      exact nulFree_service (validateOsValue_nulFree hValid)

/-- The targets of the filters that are listed are constructed as well. -/
theorem constructed_of_listed {raw : RawFilter} {filter : Filter} (h : filterFromRaw raw = .ok filter) :
    filter.target.Constructed := by
  have hAction {target : FilterTarget} (hTarget : target.Constructed)
      (h : (do
        let action ←
          if raw.action = 1 then .ok FilterAction.preventRestart
          else if raw.action = 2 then .ok .preventShutdown
          else .error (.new .malformedOsData none "Windows returned an unknown filter action")
        return { target, action } : Except Error Filter) = .ok filter) : filter.target.Constructed := by
    split_ifs at h <;> cases h <;> exact hTarget
  unfold filterFromRaw at h
  cases hRaw : raw.target with
  | executable path =>
      simp only [hRaw] at h
      cases hTarget : FilterTarget.fromRawExecutable path with
      | error error =>
          rw [hTarget] at h
          cases h
      | ok target =>
          rw [hTarget] at h
          exact hAction (.rawExecutable hTarget) h
  | process process =>
      simp only [hRaw] at h
      split at h
      · cases h
      · exact hAction (.rawProcess _) h
  | service name =>
      simp only [hRaw] at h
      cases hTarget : FilterTarget.fromRawService name with
      | error error =>
          rw [hTarget] at h
          cases h
      | ok target =>
          rw [hTarget] at h
          exact hAction (.rawService hTarget) h

end FilterTarget

omit [Platform] in
/-- The adapter passes the image of the path or of the name. -/
theorem FilterPointers.whole_new {target : FilterTarget} {raw : RawFilterTarget} (h : target.NulFree)
    (hRaw : rawFilterTarget target = .ok raw) :
    ∀ wide ∈ (FilterPointers.new raw).filename.toList ++ (FilterPointers.new raw).service.toList,
      wide.Whole := by
  intro wide hMem
  rw [rawFilterTarget_eq_ok] at hRaw
  cases hRaw
  obtain ⟨kind⟩ := target
  cases kind with
  | executable path =>
      obtain rfl := List.mem_singleton.mp hMem
      exact WideString.whole_new (h.1 path rfl)
  | process process => cases hMem
  | service name =>
      obtain rfl := List.mem_singleton.mp hMem
      exact WideString.whole_new (h.2 name rfl)

namespace RestartSession

/-- A filter is passed with the string of its target. -/
theorem wp_setFilter (session : RestartSession) {target : FilterTarget} (h : target.NulFree)
    (action : FilterAction) :
    stringContract.wp (session.setFilter target action).run (fun _ _ => True) () := by
  unfold setFilter
  rw [wp_run_bind]
  apply (wp_ofResult stringContract (rawFilterTarget target) _ _).mpr
  cases hRaw : rawFilterTarget target with
  | error payload => trivial
  | ok raw =>
      apply (wp_run_lift _ _ _ _).mpr
      apply (wp_mapErr _ _ _ _ _).mpr
      unfold SessionHandle.addFilter
      split
      · trivial
      · rw [wp_run_bind, wp_sysCall]
        exact ⟨FilterPointers.whole_new h hRaw, fun _ _ => trivial⟩

/-- A filter is removed by the string of its target. -/
theorem wp_removeFilter (session : RestartSession) {target : FilterTarget} (h : target.NulFree) :
    stringContract.wp (session.removeFilter target).run (fun _ _ => True) () := by
  unfold removeFilter
  rw [wp_run_bind]
  apply (wp_ofResult stringContract (rawFilterTarget target) _ _).mpr
  cases hRaw : rawFilterTarget target with
  | error payload => trivial
  | ok raw =>
      apply (wp_run_lift _ _ _ _).mpr
      apply (wp_mapErr _ _ _ _ _).mpr
      unfold SessionHandle.removeFilter
      rw [wp_run_bind, wp_sysCall]
      exact ⟨FilterPointers.whole_new h hRaw, fun _ _ => trivial⟩

end RestartSession

/-! ### Operations -/

/-- The filter target that an operation is given. -/
def Op.target? : Op → Option FilterTarget
  | .setFilter target _ => some target
  | .removeFilter target => some target
  | _ => none

omit [Platform] in
/-- No other call passes a string. -/
theorem Call.strings_eq_nil {c : Call} (h : c.Reports ∨ c.ListsFilters ∨ c.MovesOn) : c.strings = [] := by
  cases c <;> first | rfl | simp [Reports, ListsFilters, MovesOn, CallsBack] at h

/-- An operation that borrows its value passes what its method does. -/
theorem wp_strings_borrowing {α : Type} {value : Value} {method : CrateM α}
    {output : Except Error α → Output} (h : stringContract.wp method.run (fun _ _ => True) ()) :
    stringContract.wp (borrowing value method output) (fun _ _ => True) () :=
  (wp_bind _ _ _ _ _).mpr (wp_mono _ h fun _ _ _ => trivial)

theorem wp_strings_borrowingUnwind {α : Type} {value : Value} {method : UnwindM (Except Error α)}
    {output : Except Error α → Output} (h : stringContract.wp method.run (fun _ _ => True) ()) :
    stringContract.wp (borrowingUnwind value method output) (fun _ _ => True) () := by
  refine (wp_bind _ _ _ _ _).mpr (wp_mono _ h ?_)
  intro result s _
  cases result <;> trivial

/-- A call that carries no string cannot truncate one. -/
theorem wp_strings_movesOn {α : Type} {p : Native α} (h : Makes Call.MovesOn p) :
    stringContract.wp p (fun _ _ => True) () :=
  wp_of_silent h fun _ hc => Call.strings_eq_nil (.inr (.inr hc))

theorem wp_strings_consuming {α : Type} {method : UnwindM α} {next : α → Value × Output}
    (h : Makes Call.MovesOn method.run) :
    stringContract.wp (consuming method next) (fun _ _ => True) () :=
  wp_consuming (wp_mono _ (wp_strings_movesOn h) fun _ _ _ => trivial)

theorem wp_strings_affectedApplications (core : SessionCore) :
    stringContract.wp core.affectedApplications.run (fun _ _ => True) () :=
  wp_of_silent core.affectedApplications_makes fun _ hc => Call.strings_eq_nil (.inl hc)

/-- A destructor makes only calls that carry no string. -/
theorem Value.drop_makes (value : Value) : Makes Call.MovesOn value.drop := by
  cases value with
  | session session => exact session.core.drop_makes
  | joined session => exact session.core.drop_makes
  | pending pending => exact pending.drop_makes
  | completion completion => exact completion.core.drop_makes
  | shutdownNotStarted error => exact error.state.core.drop_makes
  | restartNotStarted error => exact error.state.drop_makes
  | gone => exact makes_done _

section

variable {op : Op} {p : Native (Value × Output)}

/-- The operations of a session, the filters among them. -/
theorem wp_strings_performSession {session : RestartSession}
    (hTarget : ∀ target ∈ op.target?, target.NulFree) (hOp : performSession session op = some p) :
    stringContract.wp p (fun _ _ => True) () := by
  have hRegister (resources : ResourceBatch) : stringContract.wp
      (borrowing (.session session) (session.core.registerResources resources) .done)
      (fun _ _ => True) () := wp_strings_borrowing (session.core.wp_registerResources resources)
  cases op <;> simp only [performSession, reduceCtorEq, Option.some.injEq] at hOp <;> subst hOp
  case registerResources => exact hRegister _
  case registerFiles => exact hRegister _
  case registerProcesses => exact hRegister _
  case registerServices => exact hRegister _
  case affectedApplications =>
    exact wp_strings_borrowing (wp_strings_affectedApplications session.core)
  case setFilter target action =>
    exact wp_strings_borrowingUnwind (session.wp_setFilter (hTarget target rfl) action)
  case removeFilter target =>
    exact wp_strings_borrowingUnwind (session.wp_removeFilter (hTarget target rfl))
  case filters =>
    apply wp_strings_borrowing
    exact wp_of_silent session.filters_makes fun _ hc => Call.strings_eq_nil (.inr (.inl hc))
  case shutdown => exact wp_strings_consuming (session.shutdownWithOptions_makes _)
  case shutdownWithOptions options =>
    exact wp_strings_consuming (session.shutdownWithOptions_makes options)
  case shutdownWithProgress options callback =>
    exact wp_strings_consuming (session.shutdownWithProgress_makes options callback)
  case endSession =>
    exact wp_strings_movesOn (session.core.end_makes.bind fun _ => makes_done _)

/-- The operations of a joined session. -/
theorem wp_strings_performJoined {session : JoinedSession} (hOp : performJoined session op = some p) :
    stringContract.wp p (fun _ _ => True) () := by
  have hRegister (resources : ResourceBatch) : stringContract.wp
      (borrowing (.joined session) (session.core.registerResources resources) .done)
      (fun _ _ => True) () := wp_strings_borrowing (session.core.wp_registerResources resources)
  cases op <;> simp only [performJoined, reduceCtorEq, Option.some.injEq] at hOp <;> subst hOp
  case registerResources => exact hRegister _
  case registerFiles => exact hRegister _
  case registerProcesses => exact hRegister _
  case registerServices => exact hRegister _
  case endSession =>
    exact wp_strings_movesOn (session.core.end_makes.bind fun _ => makes_done _)

/-- The operations before a restart. -/
theorem wp_strings_performPending {pending : RestartPending}
    (hOp : performPending pending op = some p) : stringContract.wp p (fun _ _ => True) () := by
  cases op <;> simp only [performPending, reduceCtorEq, Option.some.injEq] at hOp <;> subst hOp
  case shutdownOutcome => cases pending.shutdownOutcome <;> trivial
  case restart => exact wp_strings_consuming pending.restart_makes
  case restartWithProgress callback =>
    exact wp_strings_consuming (pending.restartWithProgress_makes callback)
  case leaveStopped => exact wp_strings_consuming pending.leaveStopped_makes

/-- The operations after the recovery. -/
theorem wp_strings_performCompletion {completion : RecoveryCompletion}
    (hOp : performCompletion completion op = some p) : stringContract.wp p (fun _ _ => True) () := by
  cases op <;> simp only [performCompletion, reduceCtorEq, Option.some.injEq] at hOp <;> subst hOp
  case outcome => trivial
  case affectedApplications =>
    exact wp_strings_borrowing (wp_strings_affectedApplications completion.core)
  case endSession =>
    apply wp_strings_movesOn
    exact (completion.core.end_makes.bind fun _ => makes_done _).bind fun _ => makes_done _

/-- Whatever its owner holds, an operation passes whole strings. -/
theorem wp_strings_perform {value : Value} (hTarget : ∀ target ∈ op.target?, target.NulFree)
    (hOp : perform value op = some p) : stringContract.wp p (fun _ _ => True) () := by
  by_cases hDrop : op = .dropValue
  · subst hDrop
    have hDropped : stringContract.wp (do
        value.drop
        return ((.gone, .done (.ok ())) : Value × Output)) (fun _ _ => True) () :=
      wp_strings_movesOn (value.drop_makes.bind fun _ => makes_done _)
    cases value <;> cases hOp <;> exact hDropped
  cases value with
  | session session => exact wp_strings_performSession hTarget (perform_session hDrop ▸ hOp)
  | joined session => exact wp_strings_performJoined (perform_joined hDrop ▸ hOp)
  | pending pending => exact wp_strings_performPending (perform_pending hDrop ▸ hOp)
  | completion completion => exact wp_strings_performCompletion (perform_completion hDrop ▸ hOp)
  | shutdownNotStarted error =>
      cases op <;> cases hOp
      · trivial
      · exact absurd rfl hDrop
  | restartNotStarted error =>
      cases op <;> cases hOp
      · trivial
      · exact absurd rfl hDrop
  | gone => cases op <;> cases hOp

end

end RestartManager
