import RestartManager.Interaction.Contract

/-! Two programs that make the same calls. They may differ in what they
return, and a relation says how their results correspond. -/
namespace Interaction

universe u v

namespace Program

variable {Call : Type u} {Response : Call → Type v} {α β α' β' : Type v}

/-- The programs make the same calls for the same responses, and their results
are related by `R`. -/
inductive Related (R : α → α' → Prop) :
    Program Call Response α → Program Call Response α' → Prop
  | done {result : α} {result' : α'} (h : R result result') : Related R (done result) (done result')
  | call {c : Call} {next : Response c → Program Call Response α}
      {next' : Response c → Program Call Response α'}
      (h : ∀ response, Related R (next response) (next' response)) :
      Related R (call c next) (call c next')

namespace Related

variable {R : α → α' → Prop} {p : Program Call Response α} {p' : Program Call Response α'}

/-- A program is related to itself, and its results are as it returns them. -/
theorem refl {P : α → Prop} {p : Program Call Response α} (h : Contract.Returns P p) :
    Related (fun result result' => result' = result ∧ P result) p p := by
  induction p with
  | done result => exact .done ⟨rfl, h⟩
  | call c next ih => exact .call fun response => ih response (h.2 response trivial)

theorem bind {S : β → β' → Prop} {f : α → Program Call Response β}
    {f' : α' → Program Call Response β'} (h : Related R p p')
    (hf : ∀ result result', R result result' → Related S (f result) (f' result')) :
    Related S (p >>= f) (p' >>= f') := by
  induction h with
  | done h => exact hf _ _ h
  | call _ ih => exact .call ih

theorem mono {R' : α → α' → Prop} (h : Related R p p')
    (hR : ∀ result result', R result result' → R' result result') : Related R' p p' := by
  induction h with
  | done h => exact .done (hR _ _ h)
  | call _ ih => exact .call ih

/-- A run of one program is a run of the other. -/
theorem steps {trace : Trace Response} {q' : Program Call Response α'} (h : Related R p p')
    (run : p'.Steps trace q') : ∃ q, p.Steps trace q ∧ Related R q q' := by
  induction run generalizing p with
  | refl => exact ⟨p, .refl _, h⟩
  | step _ ih =>
      cases h with
      | call h =>
          obtain ⟨q, run, hq⟩ := ih (h _)
          exact ⟨q, .step run, hq⟩

theorem exec {trace : Trace Response} {result' : α'} (h : Related R p p')
    (run : p'.Exec trace result') : ∃ result, p.Exec trace result ∧ R result result' := by
  obtain ⟨q, run, hq⟩ := h.steps run
  cases hq with
  | done hR => exact ⟨_, run, hR⟩

theorem symm (h : Related R p p') : Related (fun result' result => R result result') p' p := by
  induction h with
  | done h => exact .done h
  | call _ ih => exact .call ih

end Related

end Program
end Interaction
