import RestartManager.ApplicationRestart.CommandLine
import RestartManager.Session.WideStrings
import RestartManager.Tokio.Refinement

/-! No truncated string crosses the boundary, in any run of a session, of a
facade, or of the threads that register the application for restart. -/
namespace RestartManager

open Interaction Contract Program Transition

namespace Tokio

variable [Platform] {opening : Opening}

/-! ### The blocking program -/

theorem wp_strings_blocking (opening : Opening) :
    stringContract.wp opening.blocking (fun _ _ => True) () := by
  have hSilent {c : Call} (h : c.strings = []) : stringContract.guarantee () c := by
    intro wide hMem
    rw [h] at hMem
    cases hMem
  cases opening with
  | primary =>
      have hStart : stringContract.wp SessionCore.start (fun _ _ => True) () := by
        apply SessionCore.wp_start (hSilent rfl)
        · exact fun _ _ _ _ => trivial
        · exact fun _ _ _ => ⟨hSilent rfl, fun _ _ _ => trivial⟩
        · exact fun _ _ _ _ => trivial
      exact (wp_bind _ _ _ _ _).mpr ((wp_bind _ _ _ _ _).mpr (wp_mono _ hStart fun _ _ _ => trivial))
  | joined key =>
      have hJoin : stringContract.wp (SessionCore.join key).run (fun _ _ => True) () := by
        apply SessionCore.wp_join
        · intro wide hMem
          obtain rfl := List.mem_singleton.mp hMem
          exact WideString.whole_new key.asStr_nulFree
        · exact fun _ _ _ => trivial
        · exact fun _ _ _ _ => trivial
      refine (wp_bind _ _ _ _ _).mpr ((wp_run_bind _ _ _ _ _).mpr (wp_mono _ hJoin ?_))
      intro result s _
      cases result <;> trivial

section

variable {ops : List Op} {trace : Trace} {value : Value} {last : Option Output}

theorem Blocking.passesWhole (h : Blocking opening ops trace value last)
    (hTargets : ∀ op ∈ ops, ∀ target ∈ op.target?, target.NulFree) (std : AddsNoNul trace) :
    PassesWhole trace := by
  induction h with
  | opened run => exact whole_of_steps run (wp_strings_blocking opening) std
  | perform before method run ih =>
      obtain ⟨stdBefore, stdLater⟩ := std.of_append
      apply (ih (fun op hMem => hTargets op (List.mem_append_left _ hMem)) stdBefore).append
      have hTarget := hTargets _ (List.mem_append_right _ (List.mem_singleton_self _))
      exact whole_of_steps run (wp_strings_perform hTarget method) stdLater
  | retry before method run ih =>
      obtain ⟨stdBefore, stdLater⟩ := std.of_append
      apply (ih hTargets stdBefore).append
      exact whole_of_steps run (wp_strings_perform (fun target hMem => by cases hMem) method) stdLater

/-- The program passes whole strings at any moment. -/
theorem BlockingTrace.passesWhole {flag : Bool} (h : BlockingTrace opening ops flag trace)
    (hTargets : ∀ op ∈ ops, ∀ target ∈ op.target?, target.NulFree) (std : AddsNoNul trace) :
    PassesWhole trace := by
  cases h with
  | opening run => exact whole_of_steps run (wp_strings_blocking opening) std
  | idle run => exact run.passesWhole hTargets std
  | performing before method run =>
      obtain ⟨stdBefore, stdLater⟩ := std.of_append
      apply (before.passesWhole (fun op hMem => hTargets op (List.mem_append_left _ hMem)) stdBefore).append
      have hTarget := hTargets _ (List.mem_append_right _ (List.mem_singleton_self _))
      exact whole_of_steps run (wp_strings_perform hTarget method) stdLater
  | @releasing _ _ _ value _ _ before run =>
      obtain ⟨stdBefore, stdLater⟩ := std.of_append
      apply (before.passesWhole hTargets stdBefore).append
      exact whole_of_steps run (wp_strings_movesOn value.drop_makes) stdLater

end

/-! ### The facade -/

section

variable {history : List Label} {s t : System} {l : Label}

/-- The only call of a client. -/
def IsCancel : Call → Prop
  | .rmCancelCurrentTask _ => True
  | _ => False

theorem cancel_makes (handle : SessionHandle) : Makes IsCancel handle.cancel.run := by
  unfold SessionHandle.cancel
  split
  · exact makes_done _
  · exact (makes_sysCall trivial).run_bind fun _ => makes_ofResult _

/-- The client makes no other call than the cancellation. -/
theorem cancels_of_run (run : Run (Step opening) .init₀ history s) :
    (∀ rest, s.client = .cancelling rest → Makes IsCancel rest) ∧
      ∀ event, .cancel event ∈ history → IsCancel event.1 := by
  induction run with
  | refl =>
      constructor
      · intro rest hClient
        cases hClient
      · intro event hMem
        cases hMem
  | @snoc history s t l run step ih =>
      obtain ⟨hRest, hCalls⟩ := ih
      have hQuiet (hLabel : ∀ event, l ≠ .cancel event) (event : Event)
          (hMem : .cancel event ∈ history ++ [l]) : IsCancel event.1 := by
        rcases List.mem_append.mp hMem with hMem | hMem
        · exact hCalls event hMem
        · exact absurd (List.mem_singleton.mp hMem).symm (hLabel event)
      cases step
      case cancelCall c next response hClient =>
        have hMakes := hRest _ hClient
        constructor
        · intro rest hRest
          cases hRest
          exact hMakes.2 response trivial
        · intro event hMem
          rcases List.mem_append.mp hMem with hMem | hMem
          · exact hCalls event hMem
          · cases List.mem_singleton.mp hMem
            exact hMakes.1
      case cancel hClient =>
        refine ⟨?_, hQuiet (by simp)⟩
        intro rest hRest
        cases hRest
        exact cancel_makes _
      case consumeReply future ticket reply hClient received =>
        refine ⟨?_, hQuiet (by simp)⟩
        intro rest hRest
        dsimp only at hRest
        cases hHandle : future.handle reply <;> rw [hHandle] at hRest <;> cases hRest
      all_goals
        refine ⟨?_, hQuiet (by simp)⟩
        first
          | exact hRest
          | intro rest hClient
            cases hClient

theorem mem_sent {op : Op} (h : op ∈ (sent history).map Prod.fst) :
    ∃ command, .send op command ∈ history := by
  obtain ⟨⟨op', command⟩, hMem, rfl⟩ := List.mem_map.mp h
  obtain ⟨l, hLabel, hSent⟩ := List.mem_filterMap.mp hMem
  cases l <;> cases hSent
  exact ⟨command, hLabel⟩

/-- The worker passes whole strings, and the client passes none. -/
theorem passesWhole_of_run (run : Run (Step opening) .init₀ history s)
    (hTargets : ∀ op command, .send op command ∈ history → ∀ target ∈ op.target?, target.NulFree)
    (std : AddsNoNul (calls history)) :
    ∀ event, .call event ∈ history ∨ .cancel event ∈ history →
      ∀ wide ∈ event.1.strings, wide.Whole := by
  intro event hMem
  rcases hMem with hMem | hMem
  · have hCall : event ∈ calls history := List.mem_filterMap.mpr ⟨_, hMem, rfl⟩
    have hOps : ∀ op ∈ ((sent history).map Prod.fst).take (executed history).length,
        ∀ target ∈ op.target?, target.NulFree := by
      intro op hOp
      obtain ⟨command, hSend⟩ := mem_sent (List.mem_of_mem_take hOp)
      exact hTargets op command hSend
    exact (blockingTrace_of_run run).passesWhole hOps std event hCall
  · have hCancel := (cancels_of_run run).2 event hMem
    obtain ⟨c, response⟩ := event
    intro wide hWide
    cases c <;> first | exact hCancel.elim | cases hWide

end

end Tokio

/-- Strings that were validated, and the boundary that they cross. -/
structure NoTruncation [Platform] : Prop where
  /-- The test on the encoded bytes finds exactly the zero units. -/
  detected (value : OsString) : containsNul value = true ↔ 0 ∈ value.encodeWide
  validated {value : OsString} {description : String} {kind : ErrorKind}
      (h : validateOsValue value description kind = .ok ()) : (WideString.new value).Carries value
  file {path absolute : PathBuf} {trace : Trace}
      (run : (validateAndAbsoluteFile path).run.Exec trace (.ok absolute)) (std : AddsNoNul trace) :
      (WideString.new absolute).Carries absolute
  target {target : FilterTarget} (h : target.Constructed) :
      (∀ path, target.asExecutable = some path → (WideString.new path).Carries path) ∧
      ∀ name, target.asService = some name → (WideString.new name).Carries name
  /-- Also the targets of the filters that a session lists. -/
  listed {raw : RawFilter} {filter : Filter} (h : filterFromRaw raw = .ok filter) :
      filter.target.Constructed
  arguments {arguments : OsString} (h : validateArguments arguments = .ok ()) :
      arguments.encodeWide.length ≤ 1024 ∧ (WideString.new arguments).Carries arguments
  /-- A session that is started or joined, at any moment of any operation. -/
  blocking {opening : Tokio.Opening} {ops : List Op} {flag : Bool} {trace : Trace}
      (run : Tokio.BlockingTrace opening ops flag trace)
      (targets : ∀ op ∈ ops, ∀ target ∈ op.target?, target.Constructed) (std : AddsNoNul trace) :
      PassesWhole trace
  facade {opening : Tokio.Opening} {history : List Tokio.Label} {s : Tokio.System}
      (run : Run (Tokio.Step opening) .init₀ history s)
      (targets : ∀ op command, .send op command ∈ history → ∀ target ∈ op.target?, target.Constructed)
      (std : AddsNoNul (Tokio.calls history)) :
      ∀ event, .call event ∈ history ∨ .cancel event ∈ history →
        ∀ wide ∈ event.1.strings, wide.Whole
  /-- Any threads that register the application for restart. -/
  registered {windows : Option ApplicationRestart.NativeRegistration}
      {history : List ApplicationRestart.Label} {s : ApplicationRestart.State}
      (run : Run ApplicationRestart.Step (.init windows) history s) {i : Nat}
      {commandLine : Option WideString} {flags : UInt32} {result : Int32}
      (called : .call i ⟨.registerApplicationRestart commandLine flags, result⟩ ∈ history) :
      ∃ arguments, ApplicationRestart.Fitting commandLine arguments

/-- No truncated string crosses the boundary. -/
theorem no_truncated_string [Platform] : NoTruncation where
  detected value := containsNul_iff value
  validated h := WideString.new_carries_iff.mpr (validateOsValue_nulFree h)
  file {path absolute trace} run std := by
    have hNulFree := (Contract.wp_exec _ run (wp_validateAndAbsoluteFile path)
      (stringContract_conforms std)).2
    exact WideString.new_carries_iff.mpr (hNulFree absolute rfl)
  target h := by
    obtain ⟨hPath, hName⟩ := h.nulFree
    constructor
    · intro path hTarget
      exact WideString.new_carries_iff.mpr (hPath path hTarget)
    · intro name hTarget
      exact WideString.new_carries_iff.mpr (hName name hTarget)
  listed h := FilterTarget.constructed_of_listed h
  arguments h := by
    obtain ⟨hNul, hLength⟩ := validateArguments_eq_ok.mp h
    exact ⟨hLength, WideString.new_carries_iff.mpr hNul⟩
  blocking run targets std :=
    run.passesWhole (fun op hOp target hTarget => (targets op hOp target hTarget).nulFree) std
  facade run targets std := by
    apply Tokio.passesWhole_of_run run _ std
    intro op command hSend target hTarget
    exact (targets op command hSend target hTarget).nulFree
  registered {windows history s} run {i commandLine flags result} called :=
    (ApplicationRestart.callFits_of_run run).2 i _ called

section

attribute [local instance] Platform.driveLetters

/-- A service name that is no Unicode text: an unpaired surrogate. -/
def surrogateName : OsString := ⟨[0xD800]⟩

theorem no_truncated_string_surrogate :
    PassesWhole [⟨.rmStartSession, ⟨ERROR_SUCCESS, 3, zeroKey⟩⟩,
      ⟨.rmAddFilter 3 none none (some ⟨[0xD800, 0]⟩) 1, ERROR_SUCCESS⟩] := by
  let core : SessionCore := ⟨⟨3, false⟩, ⟨List.replicate 32 0x30, by decide⟩⟩
  have hTarget : FilterTarget.service surrogateName = .ok ⟨.service surrogateName⟩ := rfl
  have hStart : Tokio.Opening.primary.blocking.Exec [⟨.rmStartSession, ⟨ERROR_SUCCESS, 3, zeroKey⟩⟩]
      (.ok (.session ⟨core⟩)) := .step (.refl _)
  have hFilter : ∀ p, perform (.session ⟨core⟩) (.setFilter ⟨.service surrogateName⟩ .preventRestart) =
      some p → p.Exec [⟨.rmAddFilter 3 none none (some ⟨[0xD800, 0]⟩) 1, ERROR_SUCCESS⟩]
        (.session ⟨core⟩, .done (.ok ())) := by
    intro p hp
    cases hp
    exact .step (.refl _)
  have run : Tokio.Blocking .primary [.setFilter ⟨.service surrogateName⟩ .preventRestart] _ _ _ :=
    (Tokio.Blocking.opened hStart).perform rfl (hFilter _ rfl)
  apply no_truncated_string.blocking (.idle run)
  · intro op hOp target hMem
    cases List.mem_singleton.mp hOp
    cases hMem
    exact .service hTarget
  · intro path absolute hMem
    simp at hMem

end

end RestartManager
