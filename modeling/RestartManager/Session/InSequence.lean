import RestartManager.Session.Typestates

/-! Only a restart is ever reported as out of sequence, and its error is kept
in an outcome. So no error that a method returns has that kind. -/
namespace RestartManager

open Interaction Contract

def Error.InSequence (error : Error) : Prop := error.kind ≠ .operationOutOfSequence

/-- No native error is out of sequence by itself. -/
theorem mapSysError_inSequence (error : SysError) : (mapSysError error).InSequence := by
  unfold mapSysError
  split
  case h_11 code =>
    dsimp only
    unfold Error.InSequence Error.fromHresult
    dsimp only
    split_ifs <;> exact ErrorKind.noConfusion
  all_goals exact ErrorKind.noConfusion

/-- Only a restart makes it so. -/
theorem mapOperationError_inSequence {operation : Operation} (hOperation : operation ≠ .restart)
    (error : SysError) : (mapOperationError error operation).InSequence := by
  unfold mapOperationError
  split
  case h_8 => exact mapSysError_inSequence _
  all_goals first | exact absurd rfl hOperation | exact ErrorKind.noConfusion

/-- An error of validation has the kind that it is given. -/
theorem validateOsValue_inSequence {value : OsString} {description : String} {kind : ErrorKind}
    (hKind : kind ≠ .operationOutOfSequence) :
    ∀ error, validateOsValue value description kind = .error error → error.InSequence := by
  intro error h
  unfold validateOsValue at h
  split at h
  · cases h
    exact hKind
  · split at h
    · cases h
      exact hKind
    · cases h

/-- An error comes from the first part, or from the second. -/
theorem error_of_bind {ε α β : Type} {P : ε → Prop} {result : Except ε α} {f : α → Except ε β}
    (h : ∀ error, result = .error error → P error)
    (hf : ∀ value error, f value = .error error → P error) :
    ∀ error, (result >>= f) = .error error → P error := by
  intro error hError
  cases result with
  | error e =>
      cases hError
      exact h _ rfl
  | ok value => exact hf value error hError

/-- An error comes from one of the items. -/
theorem error_of_mapM {ε α β : Type} {P : ε → Prop} {f : α → Except ε β} {items : List α}
    (h : ∀ item error, f item = .error error → P error) :
    ∀ error, items.mapM f = .error error → P error := by
  induction items with
  | nil =>
      intro error hError
      cases hError
  | cons item rest ih =>
      rw [List.mapM_cons]
      apply error_of_bind (h item)
      intro value
      apply error_of_bind ih
      intro values error hError
      cases hError

variable [Platform]

theorem fails_sysCall {P : Error → Prop} (c : Call) :
    Fails P (sysCall c : ExceptT Error Native c.Response) := fails_lift _

/-- The errors of a native call are those of its mapping. -/
theorem fails_mapErr {α : Type} {f : SysError → Error} (result : SysM α)
    (h : ∀ error, (f error).InSequence) : Fails Error.InSequence (mapErr result f) := by
  apply (wp_mapErr (only _) result f _ _).mpr
  apply (returns_any _).mono
  intro r _ error hError
  cases r with
  | ok value => cases hError
  | error e =>
      cases hError
      exact h e

/-! ### Registration -/

/-- A path that cannot be resolved is an invalid input. -/
theorem absoluteUserPath_inSequence (path : PathBuf) (description : String) :
    Fails Error.InSequence (absoluteUserPath path description) := by
  apply Fails.bind
  · exact validateOsValue_inSequence (by decide)
  · intro _
    apply (fails_sysCall _).bind
    intro response
    cases response with
    | ok path => exact fails_pure _
    | error code => exact fails_throw (by simp [Error.InSequence, Error.new])

theorem validateAndAbsoluteFile_inSequence (path : PathBuf) :
    Fails Error.InSequence (validateAndAbsoluteFile path) := by
  apply (absoluteUserPath_inSequence _ _).bind
  intro _
  apply (fails_sysCall _).bind
  intro isDir
  cases isDir with
  | true => exact fails_throw (by simp [Error.InSequence, Error.new])
  | false => exact fails_pure _

/-- Neither the validation nor the one native call is out of sequence. -/
theorem SessionCore.registerResources_inSequence (core : SessionCore) (resources : ResourceBatch) :
    Fails Error.InSequence (core.registerResources resources) := by
  unfold SessionCore.registerResources
  split
  · exact fails_pure _
  · apply (Fails.mapM validateAndAbsoluteFile_inSequence).bind
    intro files
    have hService (name : OsString) : Fails Error.InSequence (do
        ofResult (validateUserOsValue name "a service short name")
        return name : CrateM OsString) := by
      apply Fails.bind
      · exact validateOsValue_inSequence (by decide)
      · intro _
        exact fails_pure _
    apply (Fails.mapM hService).bind
    intro services
    exact fails_mapErr _ (mapOperationError_inSequence (by decide))

/-! ### Reports and filters -/

theorem SessionCore.affectedApplications_inSequence (core : SessionCore) :
    Fails Error.InSequence core.affectedApplications :=
  (fails_mapErr _ (mapOperationError_inSequence (by decide))).bind fun _ => fails_pure _

/-- A filter that cannot be converted is malformed. -/
theorem filterFromRaw_inSequence (filter : RawFilter) :
    ∀ error, filterFromRaw filter = .error error → error.InSequence := by
  have hMalformed (message : String) :
      (Error.new .malformedOsData none message).InSequence := ErrorKind.noConfusion
  have hPath (path : PathBuf) : ∀ error, FilterTarget.fromRawExecutable path = .error error →
      error.InSequence := by
    apply error_of_bind
    · apply error_of_bind
      · exact validateOsValue_inSequence (by decide)
      · intro _ error hError
        split at hError
        · cases hError
        · cases hError
          exact hMalformed _
    · intro _ error hError
      cases hError
  have hService (name : OsString) : ∀ error, FilterTarget.fromRawService name = .error error →
      error.InSequence := by
    apply error_of_bind
    · exact validateOsValue_inSequence (by decide)
    · intro _ error hError
      cases hError
  intro error hError
  unfold filterFromRaw at hError
  dsimp only at hError
  split at hError
  case h_1 path _ =>
    revert error
    apply error_of_bind (hPath path)
    intro target error hError
    split_ifs at hError <;> cases hError
    exact hMalformed _
  case h_2 process _ =>
    split_ifs at hError <;> cases hError
    all_goals exact hMalformed _
  case h_3 name _ =>
    revert error
    apply error_of_bind (hService name)
    intro target error hError
    split_ifs at hError <;> cases hError
    exact hMalformed _

namespace RestartSession

theorem filters_inSequence (session : RestartSession) : Fails Error.InSequence session.filters :=
  (fails_mapErr _ (mapOperationError_inSequence (by decide))).bind fun _ =>
    error_of_mapM filterFromRaw_inSequence

/-- Both filter methods find what their target names, and do not panic. -/
theorem withTarget_inSequence {target : FilterTarget} {method : RawFilterTarget → CrateM Unit}
    (h : ∀ raw, Fails Error.InSequence (method raw)) :
    Returns (fun outcome => ∃ result, outcome = .ok result ∧
      ∀ error, result = .error error → error.InSequence)
      (do let raw ← ExceptT.mk (pure (rawFilterTarget target))
          ExceptT.lift (method raw).run : UnwindM (Except Error Unit)).run := by
  rw [rawFilterTarget_eq_ok]
  apply ((only _).wp_run_lift _ _ _).mpr
  apply (h _).mono
  intro result hResult
  exact ⟨result, rfl, hResult⟩

theorem setFilter_inSequence (session : RestartSession) (target : FilterTarget)
    (action : FilterAction) :
    Returns (fun outcome => ∃ result, outcome = .ok result ∧
      ∀ error, result = .error error → error.InSequence) (session.setFilter target action).run :=
  withTarget_inSequence fun _ => fails_mapErr _ (mapOperationError_inSequence (by decide))

/-- Both go through the same target and the same mapping. -/
theorem removeFilter_inSequence (session : RestartSession) (target : FilterTarget) :
    Returns (fun outcome => ∃ result, outcome = .ok result ∧
      ∀ error, result = .error error → error.InSequence) (session.removeFilter target).run :=
  withTarget_inSequence fun _ => fails_mapErr _ (mapOperationError_inSequence (by decide))

end RestartSession

/-- The end maps its one code as any other operation does. -/
theorem SessionCore.end_inSequence (core : SessionCore) :
    Returns (fun result => ∀ error, result = .error error → error.InSequence) core.end := by
  apply (returns_any _).bind
  intro ⟨result, handle⟩ _
  apply (returns_any _).bind
  intro _ _ error hError
  cases result with
  | ok value => cases hError
  | error e =>
      cases hError
      exact mapOperationError_inSequence (by decide) e

end RestartManager
