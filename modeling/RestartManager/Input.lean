import RestartManager.Sys.Native

/-! Shared validation for operating-system strings and paths. -/
namespace RestartManager

def containsNul (value : OsString) : Bool := value.asEncodedBytes.contains 0

/-- The test on the encoded bytes is a test on the units. -/
theorem containsNul_iff (value : OsString) : containsNul value = true ↔ 0 ∈ value.units := by
  rw [containsNul, List.contains_iff_mem, OsString.asEncodedBytes, Wtf8.zero_mem_encode]

def validateOsValue (value : OsString) (description : String) (kind : ErrorKind) :
    Except Error Unit :=
  if value.isEmpty then .error (.new kind none s!"{description} may not be empty")
  else if containsNul value then
    .error (.new kind none s!"{description} may not contain an embedded NUL")
  else .ok ()

def validateUserOsValue (value : OsString) (description : String) : Except Error Unit :=
  validateOsValue value description .invalidInput

def validateOsOutput (value : OsString) (description : String) : Except Error Unit :=
  validateOsValue value description .malformedOsData

/-- Validation accepts exactly the non-empty strings without a NUL unit. -/
theorem validateOsValue_eq_ok {value : OsString} {description : String} {kind : ErrorKind} :
    validateOsValue value description kind = .ok () ↔ value.units ≠ [] ∧ 0 ∉ value.units := by
  rw [validateOsValue, ← (OsString.isEmpty_iff value).ne, ← (containsNul_iff value).not]
  split_ifs with hEmpty hNul <;> simp [*]

/-- A constructor that validates first. -/
theorem validated_eq_ok {α : Type} {validation : Except Error Unit} {value result : α} :
    (do
      validation
      return value : Except Error α) = .ok result ↔ validation = .ok () ∧ value = result := by
  cases validation with
  | error error => simp [bind, Except.bind]
  | ok _ => simp [bind, Except.bind, pure, Except.pure]

variable [Platform]

def absoluteUserPath (path : PathBuf) (description : String) : CrateM PathBuf := do
  ofResult (validateUserOsValue path description)
  match ← sysCall (.pathAbsolute path) with
  | .ok path => return path
  | .error code => throw (.new .invalidInput code s!"{description} could not be made absolute")

def validateAbsoluteOsPath (path : PathBuf) (description : String) : Except Error Unit := do
  validateOsOutput path description
  if Platform.isAbsolute path then .ok ()
  else .error (.new .malformedOsData none s!"Windows returned a relative {description}")

theorem validateAbsoluteOsPath_eq_ok {path : PathBuf} {description : String} :
    validateAbsoluteOsPath path description = .ok () ↔
      path.units ≠ [] ∧ 0 ∉ path.units ∧ Platform.isAbsolute path = true := by
  have hValue : validateOsValue path description .malformedOsData = .ok () ↔
      path.units ≠ [] ∧ 0 ∉ path.units := validateOsValue_eq_ok
  rw [← and_assoc, ← hValue]
  unfold validateAbsoluteOsPath validateOsOutput
  cases h : validateOsValue path description .malformedOsData with
  | error error => simp [bind, Except.bind]
  | ok value => cases hp : Platform.isAbsolute path <;> simp [bind, Except.bind]

/-- What the standard library promises of a path it makes absolute. -/
def IsAbsolutePath (path : PathBuf) : Prop :=
  Platform.isAbsolute path = true ∧ path.units ≠ [] ∧ 0 ∉ path.units

/-- The promise was kept throughout a run. -/
def AbsolutePathsAreAbsolute (trace : Trace) : Prop :=
  ∀ path absolute, (⟨.pathAbsolute path, .ok absolute⟩ : Event) ∈ trace → IsAbsolutePath absolute

/-- The same promise, as what a program relies on. -/
def pathContract : Interaction.Contract Call.Response Unit where
  guarantee _ _ := True
  rely _ c := match c with
    | .pathAbsolute _ => fun response => ∀ absolute, response = .ok absolute → IsAbsolutePath absolute
    | _ => fun _ => True
  next _ _ _ := ()

theorem pathContract_conforms {trace : Trace} (h : AbsolutePathsAreAbsolute trace) :
    pathContract.Conforms () trace := by
  induction trace with
  | nil => trivial
  | cons event trace ih =>
      refine ⟨?_, ih fun path absolute hMem => h path absolute (List.mem_cons_of_mem _ hMem)⟩
      obtain ⟨c, response⟩ := event
      cases c <;> first | trivial | skip
      rename_i path
      rintro absolute rfl
      exact h path absolute List.mem_cons_self

/-- A path is validated before it is made absolute. What the environment then
promises of the answer holds of the path that is returned. -/
theorem wp_absoluteUserPath_of {State : Type} {C : Interaction.Contract Call.Response State} {s : State}
    {R : PathBuf → Prop} {path : PathBuf} (description : String)
    (hCall : C.guarantee s (.pathAbsolute path))
    (hAnswer : 0 ∉ path.units → ∀ absolute, C.rely s (.pathAbsolute path) (.ok absolute) → R absolute) :
    C.wp (absoluteUserPath path description).run
      (fun result _ => ∀ absolute, result = .ok absolute → R absolute) s := by
  unfold absoluteUserPath
  rw [Interaction.Contract.wp_run_bind, wp_ofResult]
  cases hValid : validateUserOsValue path description with
  | error error =>
      intro absolute h
      cases h
  | ok value =>
      simp only [Interaction.Contract.wp_run_bind]
      refine ⟨hCall, fun response hResponse => ?_⟩
      cases response with
      | ok absolute =>
          intro absolute' h
          cases h
          exact hAnswer (validateOsValue_eq_ok.mp hValid).2 absolute hResponse
      | error code =>
          intro absolute h
          cases h

/-- The path a caller passes becomes an absolute one, or an error. -/
theorem wp_absoluteUserPath (path : PathBuf) (description : String) :
    pathContract.wp (absoluteUserPath path description).run
      (fun result _ => ∀ absolute, result = .ok absolute → IsAbsolutePath absolute) () :=
  wp_absoluteUserPath_of description trivial fun _ absolute hResponse => hResponse absolute rfl

end RestartManager
