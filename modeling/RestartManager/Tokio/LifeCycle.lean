import RestartManager.Session.LifeCycle
import RestartManager.Tokio.Lives

/-! The life of a primary session through the facade: when its worker has gone,
Windows was asked for one complete life. -/
namespace RestartManager

open Interaction Contract Program Transition

namespace LifeCycle

section

variable [Platform]

theorem word_of_unopened {trace : Trace} {error : Error}
    (run : Tokio.Opening.primary.blocking.Exec trace (.error error)) : Word (steering trace) := by
  obtain ⟨started, hNew, hStarted⟩ := Tokio.exec_primary_iff.mp run
  cases started with
  | ok session => cases hStarted
  | error error =>
      have hTrace : events (trace.map .call) = trace := events_calls
      rw [← hTrace]
      exact lived_iff_word.mp ⟨_, .failed hNew, rfl⟩

/-- The worker drops what the last of its commands left. -/
theorem word_of_dropped {ops : List Op} {trace later : Trace} {value : Value} {last : Option Output}
    (before : Tokio.Blocking .primary ops trace value last) (run : value.drop.Exec later ()) :
    Word (steering (trace ++ later)) := by
  obtain ⟨history, outputs, hShown, rfl, -⟩ := before.shown
  have hLived : Lived value (steering (events history)) := ⟨history, hShown.life, rfl⟩
  rw [steering_append, ← lived_iff_word]
  by_cases hGone : value = .gone
  · subst hGone
    obtain ⟨rfl, -⟩ := exec_done_iff.mp run
    rwa [show steering [] = [] from rfl, List.append_nil]
  · exact hLived.dropped hGone run

theorem word_of_terminated {history : List Tokio.Label} {s : Tokio.System}
    (run : Run (Tokio.Step .primary) .init₀ history s) (ended : s.worker = .terminated) :
    Word (steering (Tokio.calls history)) := by
  obtain ⟨done, flight, h⟩ := Tokio.Pipeline.of_run run
  have hStage := h.stage
  rw [ended] at hStage
  generalize Tokio.calls history = trace, Tokio.released history = flag at hStage
  cases hStage with
  | failed begun closed => exact word_of_unopened begun
  | terminated before dropped closed => exact word_of_dropped before dropped

/-- What holds of the lives of a primary session. -/
structure LivesExact : Prop where
  /-- The words are what complete lives ask for. -/
  complete : ∀ trace, (∃ history, Life history .gone ∧ steering (events history) = trace) ↔ Word trace
  /-- At any moment a life has asked for the beginning of one. -/
  begins : ∀ history, Observed history → ∃ word, Word word ∧ steering (events history) <+: word
  /-- So has a worker, which has asked for all of it when it is gone. -/
  worker : ∀ history s, Run (Tokio.Step .primary) .init₀ history s →
    (∃ word, Word word ∧ steering (Tokio.calls history) <+: word) ∧
      (s.worker = .terminated → Word (steering (Tokio.calls history)))

/-- The lives of a primary session ask Windows for the words of the language
and for no others, and so does every worker of the facade. -/
theorem lives_exact : LivesExact where
  complete _ := lived_iff_word
  begins _ := begins_of_observed
  worker history s run := by
    obtain ⟨entries, hObserved, hCalls, -⟩ := Tokio.observed_of_run run
    rw [← hCalls]
    refine ⟨begins_of_observed hObserved, fun ended => ?_⟩
    rw [hCalls]
    exact word_of_terminated run ended

end

end LifeCycle
end RestartManager
