import RestartManager.Interaction.Program

/-! Preconditions for interactive programs. A contract follows the exchange
with the environment in a state of its own. It says which requests a program
may make there, which responses the environment may give, and where each
exchange leads. A proof about a program then ranges over every response the
contract admits, and never over a particular environment. -/
namespace Interaction

universe u v w

/-- `guarantee` is what the program promises about its requests and `rely` is
what the environment promises about its responses. -/
structure Contract {Call : Type u} (Response : Call → Type v) (State : Type w) where
  guarantee : State → Call → Prop
  rely : State → (c : Call) → Response c → Prop
  next : State → (c : Call) → Response c → State

namespace Contract

variable {Call : Type u} {Response : Call → Type v} {State : Type w} {α β : Type v}
variable (C : Contract Response State)

/-- The contract state after a recorded exchange. -/
def after : State → Trace Response → State
  | s, [] => s
  | s, e :: trace => after (C.next s e.1 e.2) trace

/-- Every recorded response keeps the environment's promise. -/
def Conforms : State → Trace Response → Prop
  | _, [] => True
  | s, e :: trace => C.rely s e.1 e.2 ∧ Conforms (C.next s e.1 e.2) trace

/-- Every recorded request keeps the program's promise. -/
def Respects : State → Trace Response → Prop
  | _, [] => True
  | s, e :: trace => C.guarantee s e.1 ∧ Respects (C.next s e.1 e.2) trace

/-- A trace is respected if its first part is, and then its second. -/
theorem respects_append (s : State) (first second : Trace Response) :
    C.Respects s (first ++ second) ↔
      C.Respects s first ∧ C.Respects (C.after s first) second := by
  induction first generalizing s with
  | nil => simp [Respects, after]
  | cons e first ih => simp [Respects, after, ih, and_assoc]

/-- The state after a trace is reached through its parts. -/
theorem after_append (s : State) (first second : Trace Response) :
    C.after s (first ++ second) = C.after (C.after s first) second := by
  induction first generalizing s with
  | nil => rfl
  | cons e first ih => exact ih _

/-- With no promise asked of the environment, every exchange conforms. -/
theorem conforms_of_rely (h : ∀ s c r, C.rely s c r) (s : State) (trace : Trace Response) :
    C.Conforms s trace := by
  induction trace generalizing s with
  | nil => trivial
  | cons e trace ih => exact ⟨h _ _ _, ih _⟩

/-- The weakest condition on the contract state under which every request of
`p` is allowed and every result satisfies `Q`. -/
def wp : Program Call Response α → (α → State → Prop) → State → Prop
  | .done result, Q, s => Q result s
  | .call c next, Q, s =>
      C.guarantee s c ∧ ∀ r, C.rely s c r → wp (next r) Q (C.next s c r)

@[simp] theorem wp_done (result : α) (Q : α → State → Prop) (s : State) :
    C.wp (.done result) Q s ↔ Q result s := Iff.rfl

@[simp] theorem wp_call (c : Call) (next : Response c → Program Call Response α)
    (Q : α → State → Prop) (s : State) :
    C.wp (.call c next) Q s ↔
      C.guarantee s c ∧ ∀ r, C.rely s c r → C.wp (next r) Q (C.next s c r) := Iff.rfl

@[simp] theorem wp_request_bind (c : Call) (f : Response c → Program Call Response α)
    (Q : α → State → Prop) (s : State) :
    C.wp (Program.request c >>= f) Q s ↔
      C.guarantee s c ∧ ∀ r, C.rely s c r → C.wp (f r) Q (C.next s c r) := Iff.rfl

/-- The condition of a sequence nests the condition of its second part. -/
@[simp] theorem wp_bind (p : Program Call Response α) (f : α → Program Call Response β)
    (Q : β → State → Prop) (s : State) :
    C.wp (p >>= f) Q s ↔ C.wp p (fun result => C.wp (f result) Q) s := by
  induction p generalizing s with
  | done result => rfl
  | call c next ih => simp only [Program.call_bind, wp_call, ih]

/-- A weaker postcondition is met as well. -/
theorem wp_mono {p : Program Call Response α} {Q Q' : α → State → Prop} {s : State}
    (h : C.wp p Q s) (hQ : ∀ result s', Q result s' → Q' result s') : C.wp p Q' s := by
  induction p generalizing s with
  | done result => exact hQ _ _ h
  | call c next ih => exact ⟨h.1, fun r hr => ih r (h.2 r hr)⟩

/-- A condition survives every conforming partial run, and the requests made
on the way respect the contract. -/
theorem wp_steps {p q : Program Call Response α} {Q : α → State → Prop} {s : State}
    {trace : Trace Response} (run : p.Steps trace q) (h : C.wp p Q s)
    (hTrace : C.Conforms s trace) : C.Respects s trace ∧ C.wp q Q (C.after s trace) := by
  induction run generalizing s with
  | refl => exact ⟨trivial, h⟩
  | step _ ih =>
      obtain ⟨hRespects, hAfter⟩ := ih (h.2 _ hTrace.1) hTrace.2
      exact ⟨⟨h.1, hRespects⟩, hAfter⟩

/-- Soundness: a complete conforming run respects the contract and ends in
the postcondition. -/
theorem wp_exec {p : Program Call Response α} {Q : α → State → Prop} {s : State}
    {trace : Trace Response} {result : α} (run : p.Exec trace result) (h : C.wp p Q s)
    (hTrace : C.Conforms s trace) : C.Respects s trace ∧ Q result (C.after s trace) :=
  C.wp_steps run h hTrace

/-- A contract whose environment promises as much, and whose program may do as
much, can replace another one. `R` relates the states of the two. -/
theorem wp_simulate {State' : Type*} {D : Contract Response State'} {R : State → State' → Prop}
    {p : Program Call Response α} {Q : α → State' → Prop} {s : State} {t : State'}
    (hCall : ∀ s t c, R s t → D.guarantee t c → C.guarantee s c ∧
      ∀ r, C.rely s c r → D.rely t c r ∧ R (C.next s c r) (D.next t c r))
    (hR : R s t) (h : D.wp p Q t) : C.wp p (fun result s' => ∃ t', R s' t' ∧ Q result t') s := by
  induction p generalizing s t with
  | done result => exact ⟨t, hR, h⟩
  | call c next ih =>
      obtain ⟨hGuarantee, hNext⟩ := hCall s t c hR h.1
      refine ⟨hGuarantee, fun r hr => ?_⟩
      obtain ⟨hRely, hR'⟩ := hNext r hr
      exact ih r hR' (h.2 r hRely)

/-- A contract that permits as much keeps track of another one. -/
theorem respects_simulate {State' : Type*} {D : Contract Response State'} {R : State → State' → Prop}
    {s : State} {t : State'} {trace : Trace Response}
    (hCall : ∀ s t c, R s t → D.guarantee t c → C.guarantee s c ∧
      ∀ r, R (C.next s c r) (D.next t c r))
    (hR : R s t) (h : D.Respects t trace) :
    C.Respects s trace ∧ R (C.after s trace) (D.after t trace) := by
  induction trace generalizing s t with
  | nil => exact ⟨trivial, hR⟩
  | cons e trace ih =>
      obtain ⟨hGuarantee, hNext⟩ := hCall s t e.1 hR h.1
      obtain ⟨hRespects, hAfter⟩ := ih (hNext e.2) h.2
      exact ⟨⟨hGuarantee, hRespects⟩, hAfter⟩

/-- A contract that counts the requests of a kind. -/
theorem after_count {C : Contract Response Nat} {counted : Call → Bool}
    (hNext : ∀ n c r, C.next n c r = n + (counted c).toNat) (n : Nat) (trace : Trace Response) :
    C.after n trace = n + trace.countP fun e => counted e.1 := by
  induction trace generalizing n with
  | nil => rfl
  | cons e trace ih =>
      rw [after, ih, hNext, List.countP_cons]
      cases counted e.1 with
      | false => simp
      | true =>
          simp only [Bool.toNat_true, if_pos]
          omega

/-- Allow exactly the requests of a kind, in any order. -/
def only (P : Call → Prop) : Contract Response Unit where
  guarantee _ c := P c
  rely _ _ _ := True
  next _ _ _ := ()

/-- Every request that `p` can make is of the kind `P`. -/
def Makes (P : Call → Prop) (p : Program Call Response α) : Prop := (only P).wp p (fun _ _ => True) ()

section Makes

variable {P P' : Call → Prop}

theorem makes_done (result : α) : Makes P (.done result : Program Call Response α) := trivial

/-- A request makes the one call. -/
theorem makes_request {c : Call} (h : P c) : Makes P (Program.request c : Program Call Response _) :=
  ⟨h, fun _ _ => trivial⟩

/-- A sequence makes the calls of its parts. -/
theorem Makes.bind {p : Program Call Response α} {f : α → Program Call Response β}
    (hp : Makes P p) (hf : ∀ result, Makes P (f result)) : Makes P (p >>= f) :=
  ((only P).wp_bind p f _ _).mpr ((only P).wp_mono hp fun result _ _ => hf result)

theorem Makes.mono {p : Program Call Response α} (h : Makes P p) (hP : ∀ c, P c → P' c) :
    Makes P' p := by
  induction p with
  | done result => trivial
  | call c next ih => exact ⟨hP c h.1, fun r hr => ih r (h.2 r hr)⟩

/-- A loop makes the calls of its body. -/
theorem Makes.foldlM {ι : Type*} {step : α → ι → Program Call Response α} {items : List ι}
    {start : α} (h : ∀ a i, Makes P (step a i)) : Makes P (items.foldlM step start) := by
  induction items generalizing start with
  | nil => exact makes_done start
  | cons i rest ih =>
      rw [List.foldlM_cons]
      exact (h start i).bind fun a => ih

/-- What a contract allows to make bounds what a program that keeps it makes. -/
theorem makes_of_wp {p : Program Call Response α} {Q : α → State → Prop} {s : State}
    (h : C.wp p Q s) (hRely : ∀ s c r, C.rely s c r) (hP : ∀ s c, C.guarantee s c → P c) :
    Makes P p := by
  induction p generalizing s with
  | done result => trivial
  | call c next ih => exact ⟨hP s c h.1, fun r _ => ih r (h.2 r (hRely s c r))⟩

/-- Whatever the responses were, only requests of the kind were made. -/
theorem Makes.events {p q : Program Call Response α} {trace : Trace Response} (h : Makes P p)
    (run : p.Steps trace q) : ∀ e ∈ trace, P e.1 := by
  induction run with
  | refl => exact fun e hMem => absurd hMem List.not_mem_nil
  | step rest ih =>
      intro e hMem
      rcases List.mem_cons.mp hMem with rfl | hMem
      · exact h.1
      · exact ih (h.2 _ trivial) e hMem

/-- Requests of this kind are allowed in the state, and leave it alone. -/
def Ignores (s : State) (P : Call → Prop) : Prop :=
  ∀ c, P c → C.guarantee s c ∧ ∀ r, C.rely s c r → C.next s c r = s

/-- Calls that a contract ignores leave its state as it was. -/
theorem wp_of_makes {p : Program Call Response α} {s : State} (h : Makes P p)
    (hP : C.Ignores s P) :
    C.wp p (fun _ s' => s' = s) s := by
  induction p with
  | done result => rfl
  | call c next ih =>
      obtain ⟨hGuarantee, hNext⟩ := hP c h.1
      refine ⟨hGuarantee, fun r hr => ?_⟩
      rw [hNext r hr]
      exact ih r (h.2 r trivial)

/-- The contract, for programs that make requests of a kind. -/
def restrict (P : Call → Prop) : Contract Response State where
  guarantee s c := C.guarantee s c ∧ P c
  rely := C.rely
  next := C.next

/-- A contract may be restricted to the calls that the program makes. -/
theorem wp_restrict {p : Program Call Response α} {Q : α → State → Prop} {s : State} (h : C.wp p Q s)
    (hMakes : Makes P p) : (C.restrict P).wp p Q s := by
  induction p generalizing s with
  | done result => exact h
  | call c next ih => exact ⟨⟨h.1, hMakes.1⟩, fun r hr => ih r (h.2 r hr) (hMakes.2 r trivial)⟩

end Makes

/-- Every result of `p` satisfies `R`, whatever the responses are. -/
def Returns (R : α → Prop) (p : Program Call Response α) : Prop :=
  (only fun _ => True).wp p (fun result _ => R result) ()

section Returns

variable {R R' : α → Prop} {p : Program Call Response α}

theorem returns_any (p : Program Call Response α) : Returns (fun _ => True) p := by
  induction p with
  | done result => trivial
  | call c next ih => exact ⟨trivial, fun response _ => ih response⟩

/-- What a sequence returns is what its second part does. -/
theorem Returns.bind {S : β → Prop} {f : α → Program Call Response β} (hp : Returns R p)
    (hf : ∀ result, R result → Returns S (f result)) : Returns S (p >>= f) :=
  ((only _).wp_bind p f _ _).mpr ((only _).wp_mono hp fun result _ h => hf result h)

theorem Returns.mono (h : Returns R p) (hR : ∀ result, R result → R' result) : Returns R' p :=
  (only _).wp_mono h fun result _ => hR result

/-- A loop keeps what its body keeps. -/
theorem Returns.foldlM {ι : Type*} {step : α → ι → Program Call Response α} {items : List ι}
    {start : α} (hStart : R start) (hStep : ∀ a i, R a → Returns R (step a i)) :
    Returns R (items.foldlM step start) := by
  induction items generalizing start with
  | nil => exact hStart
  | cons i rest ih =>
      rw [List.foldlM_cons]
      exact (hStep start i hStart).bind fun a ha => ih ha

/-- What every result satisfies may be assumed of the result under a contract. -/
theorem wp_and_returns {Q : α → State → Prop} {s : State} (h : C.wp p Q s) (hR : Returns R p) :
    C.wp p (fun result s' => Q result s' ∧ R result) s := by
  induction p generalizing s with
  | done result => exact ⟨h, hR⟩
  | call c next ih => exact ⟨h.1, fun r hr => ih r (h.2 r hr) (hR.2 r trivial)⟩

/-- Under a contract that relies on nothing, the results are those of every
environment. -/
theorem returns_of_wp {Q : α → State → Prop} {s : State} (h : C.wp p Q s)
    (hRely : ∀ s c r, C.rely s c r) (hQ : ∀ result s', Q result s' → R result) : Returns R p := by
  induction p generalizing s with
  | done result => exact hQ _ _ h
  | call c next ih => exact ⟨trivial, fun r _ => ih r (h.2 r (hRely s c r))⟩

end Returns

/-- A contract that asks for nothing and whose state is the exchange so far. -/
def recording : Contract Response (Trace Response) where
  guarantee _ _ := True
  rely _ _ _ := True
  next s c r := s ++ [⟨c, r⟩]

/-- The recording contract holds the trace itself. -/
theorem after_recording (s trace : Trace Response) : recording.after s trace = s ++ trace := by
  induction trace generalizing s with
  | nil => exact (List.append_nil s).symm
  | cons e trace ih =>
      rw [after, ih]
      exact List.append_assoc s [e] trace

/-- What is proved of the exchange so far holds of the whole exchange of a run. -/
theorem exec_recording {p : Program Call Response α} {Q : α → Trace Response → Prop}
    {trace : Trace Response} {result : α} (run : p.Exec trace result) (h : recording.wp p Q []) :
    Q result trace := by
  have hAfter := (wp_exec _ run h (conforms_of_rely _ (fun _ _ _ => trivial) [] trace)).2
  rwa [after_recording] at hAfter

/-- What holds of every run holds of the exchange with it. -/
theorem wp_recording {p : Program Call Response α} {Q : α → Trace Response → Prop}
    {s : Trace Response} (h : ∀ trace result, p.Exec trace result → Q result (s ++ trace)) :
    recording.wp p Q s := by
  induction p generalizing s with
  | done result => simpa using h [] result (.refl _)
  | call c next ih =>
      refine ⟨trivial, fun response _ => ih response fun trace result run => ?_⟩
      have hRun := h (⟨c, response⟩ :: trace) result (.step run)
      rwa [List.append_cons] at hRun

/-- A contract with the exchange so far beside its state. -/
def traced (C : Contract Response State) : Contract Response (State × Trace Response) where
  guarantee s c := C.guarantee s.1 c
  rely s c r := C.rely s.1 c r
  next s c r := (C.next s.1 c r, s.2 ++ [⟨c, r⟩])

section Traced

variable {C : Contract Response State} {p : Program Call Response α} {s : State}

/-- What a contract says of a program is said along with what its runs have exchanged. -/
theorem wp_traced {Q : α → State → Prop} {R : Trace Response → α → Prop} {before : Trace Response}
    (h : C.wp p Q s) (hR : ∀ trace result, p.Exec trace result → R (before ++ trace) result) :
    C.traced.wp p (fun result s' => Q result s'.1 ∧ R s'.2 result) (s, before) := by
  induction p generalizing s before with
  | done result => exact ⟨h, by simpa using hR [] result (.refl _)⟩
  | call c next ih =>
      refine ⟨h.1, fun response hRely => ih response (h.2 response hRely) fun trace result run => ?_⟩
      have hRun := hR (⟨c, response⟩ :: trace) result (.step run)
      rwa [List.append_cons] at hRun

/-- The exchange beside the state asks for nothing more. -/
theorem conforms_traced {before trace : Trace Response} (h : C.Conforms s trace) :
    C.traced.Conforms (s, before) trace := by
  induction trace generalizing s before with
  | nil => trivial
  | cons e trace ih => exact ⟨h.1, ih h.2⟩

theorem after_traced (before trace : Trace Response) :
    C.traced.after (s, before) trace = (C.after s trace, before ++ trace) := by
  induction trace generalizing s before with
  | nil => exact congrArg _ (List.append_nil before).symm
  | cons e trace ih =>
      rw [after, after]
      refine (ih _).trans (congrArg _ ?_)
      exact List.append_assoc before [e] trace

/-- A conforming run meets the condition with the whole of its exchange. -/
theorem exec_traced {Q : α → State × Trace Response → Prop} {trace : Trace Response} {result : α}
    (run : p.Exec trace result) (h : C.traced.wp p Q (s, [])) (hTrace : C.Conforms s trace) :
    Q result (C.after s trace, trace) := by
  have hAfter := (wp_exec _ run h (conforms_traced hTrace)).2
  rwa [after_traced] at hAfter

end Traced

section Fallible

variable {ε : Type v}

@[simp] theorem wp_run_pure (result : α) (Q : Except ε α → State → Prop) (s : State) :
    C.wp (pure result : ExceptT ε (Program Call Response) α).run Q s ↔ Q (.ok result) s := Iff.rfl

@[simp] theorem wp_run_throw (error : ε) (Q : Except ε α → State → Prop) (s : State) :
    C.wp (throw error : ExceptT ε (Program Call Response) α).run Q s ↔ Q (.error error) s := Iff.rfl

@[simp] theorem wp_run_lift (p : Program Call Response α) (Q : Except ε α → State → Prop)
    (s : State) :
    C.wp (ExceptT.lift p : ExceptT ε (Program Call Response) α).run Q s ↔
      C.wp p (fun result => Q (.ok result)) s := by
  rw [ExceptT.run_lift, map_eq_pure_bind, wp_bind]
  rfl

/-- A failing first part ends the sequence. -/
@[simp] theorem wp_run_bind (p : ExceptT ε (Program Call Response) α)
    (f : α → ExceptT ε (Program Call Response) β) (Q : Except ε β → State → Prop) (s : State) :
    C.wp (p >>= f).run Q s ↔
      C.wp p.run (fun
        | .ok result => C.wp (f result).run Q
        | .error error => Q (.error error)) s := by
  rw [ExceptT.run_bind, wp_bind]
  constructor <;> intro h <;> refine C.wp_mono h ?_ <;> rintro (error | result) s' h' <;> exact h'

variable {P : Call → Prop}

/-- A sequence of fallible programs makes the calls of its parts. -/
theorem Makes.run_bind {p : ExceptT ε (Program Call Response) α}
    {f : α → ExceptT ε (Program Call Response) β} (hp : Makes P p.run)
    (hf : ∀ result, Makes P (f result).run) : Makes P (p >>= f).run := by
  refine ((only P).wp_run_bind p f _ _).mpr ((only P).wp_mono hp ?_)
  rintro (error | result) _ _
  · trivial
  · exact hf result

theorem Makes.run_lift {p : Program Call Response α} (h : Makes P p) :
    Makes P (ExceptT.lift p : ExceptT ε (Program Call Response) α).run :=
  ((only P).wp_run_lift p _ _).mpr h

/-- A program for each item, up to the first that fails, makes the calls of the items. -/
theorem Makes.run_mapM {ι : Type v} {f : ι → ExceptT ε (Program Call Response) α} {items : List ι}
    (h : ∀ i, Makes P (f i).run) : Makes P (items.mapM f).run := by
  induction items with
  | nil => exact makes_done _
  | cons i rest ih =>
      rw [List.mapM_cons]
      exact (h i).run_bind fun _ => ih.run_bind fun _ => makes_done _

/-- What every element returns holds of the whole list, where an invariant of
the contract state is kept. -/
theorem wp_run_mapM {ι : Type v} {I : State → Prop} {R : α → Prop}
    {f : ι → ExceptT ε (Program Call Response) α} {items : List ι} {s : State}
    (h : ∀ i s, I s → C.wp (f i).run (fun result s' => I s' ∧ ∀ value, result = .ok value → R value) s)
    (hs : I s) :
    C.wp (items.mapM f).run
      (fun result s' => I s' ∧ ∀ values, result = .ok values → ∀ value ∈ values, R value) s := by
  induction items generalizing s with
  | nil =>
      refine ⟨hs, ?_⟩
      intro values hValues value hMem
      cases hValues
      cases hMem
  | cons i rest ih =>
      rw [List.mapM_cons, wp_run_bind]
      apply C.wp_mono (h i s hs)
      intro first s' hFirst
      obtain ⟨hs', hValue⟩ := hFirst
      cases first with
      | error error =>
          refine ⟨hs', ?_⟩
          intro values hValues
          cases hValues
      | ok value =>
          apply (C.wp_run_bind _ _ _ _).mpr
          apply C.wp_mono (ih hs')
          intro later s'' hLater
          obtain ⟨hs'', hRest⟩ := hLater
          cases later with
          | error error =>
              refine ⟨hs'', ?_⟩
              intro values hValues
              cases hValues
          | ok values =>
              refine ⟨hs'', ?_⟩
              intro values' hValues member hMem
              cases hValues
              rcases List.mem_cons.mp hMem with rfl | hMem
              · exact hValue member rfl
              · exact hRest values rfl member hMem

/-- Every failure of `p` satisfies `P`. -/
def Fails (P : ε → Prop) (p : ExceptT ε (Program Call Response) α) : Prop :=
  Returns (fun result => ∀ error, result = .error error → P error) p.run

section Fails

variable {P : ε → Prop}

theorem fails_pure (result : α) : Fails P (pure result : ExceptT ε (Program Call Response) α) := by
  intro error h
  cases h

theorem fails_throw {error : ε} (h : P error) :
    Fails P (throw error : ExceptT ε (Program Call Response) α) := by
  intro error' hError
  cases hError
  exact h

theorem fails_lift (p : Program Call Response α) :
    Fails P (ExceptT.lift p : ExceptT ε (Program Call Response) α) := by
  apply ((only _).wp_run_lift _ _ _).mpr
  apply (returns_any p).mono
  intro result _ error h
  cases h

/-- A sequence fails as its parts do. -/
theorem Fails.bind {p : ExceptT ε (Program Call Response) α}
    {f : α → ExceptT ε (Program Call Response) β} (hp : Fails P p) (hf : ∀ result, Fails P (f result)) :
    Fails P (p >>= f) := by
  refine ((only _).wp_run_bind p f _ _).mpr ((only _).wp_mono hp ?_)
  rintro (error | result) _ h
  · intro error' hError
    cases hError
    exact h error rfl
  · exact hf result

/-- A program for each item fails as one of the items does. -/
theorem Fails.mapM {ι : Type v} {f : ι → ExceptT ε (Program Call Response) α} {items : List ι}
    (h : ∀ i, Fails P (f i)) : Fails P (items.mapM f) := by
  induction items with
  | nil => exact fails_pure _
  | cons i rest ih =>
      rw [List.mapM_cons]
      exact (h i).bind fun _ => ih.bind fun _ => fails_pure _

end Fails

end Fallible

end Contract
end Interaction
