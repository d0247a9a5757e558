import RestartManager.Interaction.Transition
import RestartManager.Session.RefusedAttempts
import RestartManager.Session.WideStrings

/-! Which calls an operation can make, whatever its owner holds: an operation of
one group makes no call of another. -/
namespace RestartManager

open Interaction Contract Program Transition

/-- The calls of the group that an operation belongs to. -/
def Op.Allows : Op → Call → Prop
  | .registerResources _ | .registerFiles _ | .registerProcesses _ | .registerServices _ =>
      Call.Registers
  | .affectedApplications => Call.Reports
  | .setFilter .. | .removeFilter _ => Call.ChangesFilter
  | .filters => Call.ListsFilters
  | _ => Call.MovesOn

/-- Only an operation on a target changes the filters. -/
theorem Op.Allows.keeps_filters {op : Op} {c : Call} (h : op.Allows c) (hTarget : op.target? = none) :
    ¬c.ChangesFilter := by
  intro hChange
  cases c <;> first | exact hChange.elim | skip
  all_goals cases op <;> first | exact h.elim | cases hTarget

variable [Platform]

section

variable {P : Call → Prop}

/-- The value is left in place without a call. -/
theorem borrowing_makes {α : Type} {value : Value} {method : CrateM α} {output : Except Error α → Output}
    (h : Makes P method.run) : Makes P (borrowing value method output) :=
  h.bind fun _ => makes_done _

/-- A borrowing operation that unwinds makes the calls of its method. -/
theorem borrowingUnwind_makes {α : Type} {value : Value} {method : UnwindM (Except Error α)}
    {output : Except Error α → Output} (h : Makes P method.run) :
    Makes P (borrowingUnwind value method output) := by
  apply h.bind
  intro result
  cases result with
  | ok result => exact makes_done _
  | error payload => exact makes_done _

/-- The next value is built without a call. -/
theorem consuming_makes {α : Type} {method : UnwindM α} {next : α → Value × Output}
    (h : Makes P method.run) : Makes P (consuming method next) := by
  apply h.bind
  intro result
  cases result with
  | ok result => exact makes_done _
  | error payload => exact makes_done _

end

variable {value : Value} {op : Op} {p : Native (Value × Output)}

/-- Each operation of a session before its shutdown. -/
theorem performSession_makes {session : RestartSession} (h : performSession session op = some p) :
    Makes op.Allows p := by
  have hRegister (resources : ResourceBatch) := session.core.registerResources_makes resources
  cases op <;> simp only [performSession, reduceCtorEq, Option.some.injEq] at h <;> subst h
  case registerResources => exact borrowing_makes (hRegister _)
  case registerFiles => exact borrowing_makes (hRegister _)
  case registerProcesses => exact borrowing_makes (hRegister _)
  case registerServices => exact borrowing_makes (hRegister _)
  case affectedApplications => exact borrowing_makes session.core.affectedApplications_makes
  case setFilter target action => exact borrowingUnwind_makes (session.setFilter_makes target action)
  case removeFilter target => exact borrowingUnwind_makes (session.removeFilter_makes target)
  case filters => exact borrowing_makes session.filters_makes
  case shutdown => exact consuming_makes (session.shutdownWithOptions_makes _)
  case shutdownWithOptions options => exact consuming_makes (session.shutdownWithOptions_makes options)
  case shutdownWithProgress options callback =>
    exact consuming_makes (session.shutdownWithProgress_makes options callback)
  case endSession => exact session.core.end_makes.bind fun _ => makes_done _

theorem performJoined_makes {session : JoinedSession} (h : performJoined session op = some p) :
    Makes op.Allows p := by
  have hRegister (resources : ResourceBatch) := session.core.registerResources_makes resources
  cases op <;> simp only [performJoined, reduceCtorEq, Option.some.injEq] at h <;> subst h
  case registerResources => exact borrowing_makes (hRegister _)
  case registerFiles => exact borrowing_makes (hRegister _)
  case registerProcesses => exact borrowing_makes (hRegister _)
  case registerServices => exact borrowing_makes (hRegister _)
  case endSession => exact session.core.end_makes.bind fun _ => makes_done _

/-- Each operation between the shutdown and the recovery. -/
theorem performPending_makes {pending : RestartPending} (h : performPending pending op = some p) :
    Makes op.Allows p := by
  cases op <;> simp only [performPending, reduceCtorEq, Option.some.injEq] at h <;> subst h
  case shutdownOutcome => cases pending.shutdownOutcome <;> exact makes_done _
  case restart => exact consuming_makes pending.restart_makes
  case restartWithProgress callback => exact consuming_makes (pending.restartWithProgress_makes callback)
  case leaveStopped => exact consuming_makes pending.leaveStopped_makes

theorem performCompletion_makes {completion : RecoveryCompletion}
    (h : performCompletion completion op = some p) : Makes op.Allows p := by
  cases op <;> simp only [performCompletion, reduceCtorEq, Option.some.injEq] at h <;> subst h
  case outcome => exact makes_done _
  case affectedApplications => exact borrowing_makes completion.core.affectedApplications_makes
  case endSession =>
    exact (completion.core.end_makes.bind fun _ => makes_done _).bind fun _ => makes_done _

/-- Every operation on every value, the drop included. -/
theorem perform_makes (h : perform value op = some p) : Makes op.Allows p := by
  by_cases hDrop : op = .dropValue
  · subst hDrop
    have hDropped : Makes Call.MovesOn (do
        value.drop
        return ((.gone, .done (.ok ())) : Value × Output)) := value.drop_makes.bind fun _ => makes_done _
    cases value <;> cases h <;> exact hDropped
  cases value with
  | session session => exact performSession_makes (perform_session hDrop ▸ h)
  | joined session => exact performJoined_makes (perform_joined hDrop ▸ h)
  | pending pending => exact performPending_makes (perform_pending hDrop ▸ h)
  | completion completion => exact performCompletion_makes (perform_completion hDrop ▸ h)
  | shutdownNotStarted error =>
      cases op <;> cases h
      · exact makes_done _
      · exact absurd rfl hDrop
  | restartNotStarted error =>
      cases op <;> cases h
      · exact makes_done _
      · exact absurd rfl hDrop
  | gone => cases op <;> cases h

end RestartManager
