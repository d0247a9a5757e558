import Mathlib.Logic.Relation
import Mathlib.Control.Lawful

/-! Programs that talk to an environment, one request and one response at a
time. A program fixes what is asked and in which order; it fixes no meaning
for the requests. Every path through a program is finite, so a program always
returns once each of its requests has been answered. -/
namespace Interaction

universe u v

/-- Either a result, or a request whose response selects the rest. -/
inductive Program (Call : Type u) (Response : Call → Type v) (Result : Type v) : Type (max u v)
  | done (result : Result)
  | call (request : Call) (next : Response request → Program Call Response Result)

/-- One request together with the response it was given. -/
abbrev Event {Call : Type u} (Response : Call → Type v) := Sigma Response

abbrev Trace {Call : Type u} (Response : Call → Type v) := List (Event Response)

namespace Program

variable {Call : Type u} {Response : Call → Type v} {α β : Type v}

protected def bind : Program Call Response α → (α → Program Call Response β) →
    Program Call Response β
  | done result, next => next result
  | call request rest, next => call request fun response => (rest response).bind next

instance : Monad (Program Call Response) where
  pure := done
  bind := Program.bind

/-- The program that makes one request and returns its response. -/
def request (c : Call) : Program Call Response (Response c) := call c done

@[simp] theorem pure_eq (result : α) : (pure result : Program Call Response α) = done result := rfl

@[simp] theorem done_bind (result : α) (next : α → Program Call Response β) :
    done result >>= next = next result := rfl

@[simp] theorem call_bind (c : Call) (rest : Response c → Program Call Response α)
    (next : α → Program Call Response β) :
    call c rest >>= next = call c fun response => rest response >>= next := rfl

@[simp] theorem request_bind (c : Call) (next : Response c → Program Call Response β) :
    request c >>= next = call c next := rfl

private theorem bind_done (p : Program Call Response α) : p.bind done = p := by
  induction p with
  | done result => rfl
  | call c next ih => simp only [Program.bind, ih]

private theorem bind_bind {γ : Type v} (p : Program Call Response α)
    (first : α → Program Call Response β) (second : β → Program Call Response γ) :
    (p.bind first).bind second = p.bind fun result => (first result).bind second := by
  induction p with
  | done result => rfl
  | call c next ih => simp only [Program.bind, ih]

instance : LawfulMonad (Program Call Response) :=
  LawfulMonad.mk' _ bind_done (fun _ _ => rfl) bind_bind

/-- `Steps p trace q`: answering the requests as recorded in `trace` takes the
program `p` to the program `q` that is still to be run. -/
inductive Steps : Program Call Response α → Trace Response → Program Call Response α → Prop
  | refl (p : Program Call Response α) : Steps p [] p
  | step {c : Call} {next : Response c → Program Call Response α} {response : Response c}
      {trace : Trace Response} {q : Program Call Response α}
      (rest : Steps (next response) trace q) : Steps (call c next) (⟨c, response⟩ :: trace) q

/-- A complete run: every request was answered and the program has returned. -/
def Exec (p : Program Call Response α) (trace : Trace Response) (result : α) : Prop :=
  Steps p trace (done result)

/-- Steps compose. -/
theorem Steps.trans {p q r : Program Call Response α} {first second : Trace Response}
    (left : Steps p first q) (right : Steps q second r) : Steps p (first ++ second) r := by
  induction left with
  | refl => exact right
  | step _ ih => exact .step (ih right)

/-- Extend a run by the response to the request it is waiting for. -/
theorem Steps.snoc {p : Program Call Response α} {trace : Trace Response} {c : Call}
    {next : Response c → Program Call Response α} (run : Steps p trace (call c next))
    (response : Response c) : Steps p (trace ++ [⟨c, response⟩]) (next response) :=
  run.trans (.step (.refl _))

/-- A program that is done makes no step. -/
@[simp] theorem steps_done_iff {result : α} {trace : Trace Response}
    {q : Program Call Response α} :
    Steps (done result) trace q ↔ trace = [] ∧ q = done result := by
  constructor
  · intro h
    cases h
    exact ⟨rfl, rfl⟩
  · rintro ⟨rfl, rfl⟩
    exact .refl _

@[simp] theorem exec_done_iff {result final : α} {trace : Trace Response} :
    Exec (done result) trace final ↔ trace = [] ∧ final = result := by
  simp [Exec]

/-- An execution of a call is its answer and an execution of the rest. -/
theorem exec_call_iff {c : Call} {next : Response c → Program Call Response α}
    {trace : Trace Response} {result : α} :
    Exec (call c next) trace result ↔
      ∃ response rest, trace = ⟨c, response⟩ :: rest ∧ Exec (next response) rest result := by
  constructor
  · intro h
    cases h with
    | step rest => exact ⟨_, _, rfl, rest⟩
  · rintro ⟨response, rest, rfl, h⟩
    exact .step h

/-- A run of a sequence is either still inside its first part, or has
finished that part and is inside the second. -/
theorem steps_bind_iff {p : Program Call Response α} {f : α → Program Call Response β}
    {trace : Trace Response} {q : Program Call Response β} :
    Steps (p >>= f) trace q ↔
      (∃ p', Steps p trace p' ∧ q = p' >>= f) ∨
      (∃ first second result, trace = first ++ second ∧ Exec p first result ∧
        Steps (f result) second q) := by
  constructor
  · intro h
    induction p generalizing trace with
    | done result => exact .inr ⟨[], trace, result, rfl, .refl _, h⟩
    | call c next ih =>
        cases h with
        | refl => exact .inl ⟨call c next, .refl _, rfl⟩
        | step rest =>
            rcases ih _ rest with ⟨p', run, rfl⟩ | ⟨first, second, result, rfl, run, tail⟩
            · exact .inl ⟨p', .step run, rfl⟩
            · exact .inr ⟨_ :: first, second, result, rfl, .step run, tail⟩
  · have lift : ∀ {p p' : Program Call Response α} {first : Trace Response},
        Steps p first p' → Steps (p >>= f) first (p' >>= f) := by
      intro p p' first run
      induction run with
      | refl => exact .refl _
      | step _ ih => exact .step ih
    rintro (⟨p', run, rfl⟩ | ⟨first, second, result, rfl, run, tail⟩)
    · exact lift run
    · exact (lift run).trans tail

/-- An execution of a sequence splits at the result of its first part. -/
theorem exec_bind_iff {p : Program Call Response α} {f : α → Program Call Response β}
    {trace : Trace Response} {final : β} :
    Exec (p >>= f) trace final ↔
      ∃ first second result, trace = first ++ second ∧ Exec p first result ∧
        Exec (f result) second final := by
  refine steps_bind_iff.trans ⟨?_, Or.inr⟩
  rintro (⟨p', run, h⟩ | h)
  · cases p' with
    | done result =>
        have hf : f result = done final := h.symm
        exact ⟨trace, [], result, by simp, run, hf ▸ .refl _⟩
    | call c next => cases h
  · exact h

/-- A program can be answered to the end by any way of answering its requests. -/
theorem exists_exec_answered (answer : (c : Call) → Response c) (p : Program Call Response α) :
    ∃ trace result, Exec p trace result ∧ ∀ e ∈ trace, e.2 = answer e.1 := by
  induction p with
  | done result => exact ⟨[], result, .refl _, fun e hMem => absurd hMem List.not_mem_nil⟩
  | call c next ih =>
      obtain ⟨trace, result, run, hAnswers⟩ := ih (answer c)
      refine ⟨⟨c, answer c⟩ :: trace, result, .step run, ?_⟩
      intro e hMem
      rcases List.mem_cons.mp hMem with rfl | hMem
      · rfl
      · exact hAnswers e hMem

/-- Whatever the answers are, a program has an execution. -/
theorem exists_exec (answer : (c : Call) → Response c) (p : Program Call Response α) :
    ∃ trace result, Exec p trace result := by
  obtain ⟨trace, result, run, -⟩ := exists_exec_answered answer p
  exact ⟨trace, result, run⟩

section Fallible

variable {ε : Type v} {trace : Trace Response}

/-- A map changes the result only. -/
theorem exec_map_iff {p : Program Call Response α} {f : α → β} {final : β} :
    (f <$> p).Exec trace final ↔ ∃ result, p.Exec trace result ∧ final = f result := by
  rw [map_eq_pure_bind, exec_bind_iff]
  constructor
  · rintro ⟨first, second, result, rfl, run, h⟩
    obtain ⟨rfl, rfl⟩ := exec_done_iff.mp h
    rw [List.append_nil]
    exact ⟨result, run, rfl⟩
  · rintro ⟨result, run, rfl⟩
    exact ⟨trace, [], result, (List.append_nil _).symm, run, .refl _⟩

theorem exec_run_lift_iff {p : Program Call Response α} {final : Except ε α} :
    (ExceptT.lift p : ExceptT ε (Program Call Response) α).run.Exec trace final ↔
      ∃ result, p.Exec trace result ∧ final = .ok result := by
  rw [ExceptT.run_lift]
  exact exec_map_iff

/-- A run of a fallible sequence ends with the first failure, or runs both parts. -/
theorem exec_run_bind_iff {p : ExceptT ε (Program Call Response) α}
    {f : α → ExceptT ε (Program Call Response) β} {final : Except ε β} :
    (p >>= f).run.Exec trace final ↔
      (∃ error, p.run.Exec trace (.error error) ∧ final = .error error) ∨
      ∃ first second result, trace = first ++ second ∧ p.run.Exec first (.ok result) ∧
        (f result).run.Exec second final := by
  rw [ExceptT.run_bind, exec_bind_iff]
  constructor
  · rintro ⟨first, second, error | result, rfl, run, h⟩
    · obtain ⟨rfl, rfl⟩ := exec_done_iff.mp h
      rw [List.append_nil]
      exact .inl ⟨error, run, rfl⟩
    · exact .inr ⟨first, second, result, rfl, run, h⟩
  · rintro (⟨error, run, rfl⟩ | ⟨first, second, result, rfl, run, h⟩)
    · exact ⟨trace, [], .error error, (List.append_nil _).symm, run, .refl _⟩
    · exact ⟨first, second, .ok result, rfl, run, h⟩

end Fallible

end Program
end Interaction
