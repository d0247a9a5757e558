import RestartManager.Tokio.Futures

/-! The facade with the futures that its client owns. A future is polled any
number of times before it is dropped, and a future that was ready lives on next
to the handle that it yielded until it is dropped as well. -/
namespace RestartManager

open Interaction Transition

namespace Tokio

variable [Platform]

/-- A facade, the future that waits for its reply, the futures that were ready,
and those of them whose drop is running. -/
structure Objects where
  system : System
  live : Option FutureObject
  ready : List FutureObject
  leaving : List (FutureObject × Native (SysResult Unit))

namespace Objects

def init₀ : Objects where
  system := .init₀
  live := none
  ready := []
  leaving := []

/-- A future that was ready still has a sender. -/
def HoldsSender (o : Objects) : Prop :=
  ∃ object ∈ o.ready ++ o.leaving.map Prod.fst, object.worker ≠ none

theorem not_holdsSender {o : Objects} (hReady : o.ready = []) (hLeaving : o.leaving = []) :
    ¬o.HoldsSender := by
  simp [HoldsSender, hReady, hLeaving]

def setClient (o : Objects) (client : Client) : Objects :=
  { o with system := { o.system with client } }

/-- What the receiver of a reply is polled to. -/
def Receives (o : Objects) (ticket : Nat) : Poll (Except RecvError Reply) → Prop
  | .pending => o.system.replies ticket = none ∧ o.system.worker ≠ .terminated
  | .ready (.ok reply) => o.system.replies ticket = some reply
  | .ready (.error _) => o.system.replies ticket = none ∧ o.system.worker = .terminated

end Objects

inductive ObjectLabel
  | facade (l : Label)
  /-- A poll finds no reply. -/
  | pending
  | panicked (payload : Payload)
  /-- A future that was ready is dropped. -/
  | dropped
  /-- A native call in the drop of a future that was ready. -/
  | cancel (event : Event)

def ObjectLabel.facade? : ObjectLabel → Option Label
  | .facade l => some l
  | _ => none

/-- What the facade shows of a history. -/
def facadeLabels (history : List ObjectLabel) : List Label := history.filterMap ObjectLabel.facade?

/-- What a future that is ready shows. -/
def yieldLabel (ticket : Nat) : Poll (Except RecvError Reply) → Label
  | .ready (.ok reply) => .yield ticket reply
  | _ => .unavailable

/-- One step of the facade, or of a future that the client owns. -/
inductive ObjectStep (opening : Opening) : Objects → ObjectLabel → Objects → Prop
  /-- The worker disconnects only when no sender is left. -/
  | facade {o : Objects} {l : Label} {t : System} (step : Step opening o.system l t)
      (other : t.client = o.system.client ∨ o.live = none ∧
        ∀ future ticket, t.client = .awaiting future ticket → future.object = none)
      (disconnected : ∀ state, o.system.worker = .idle state → l = .cleanup → ¬o.HoldsSender) :
      ObjectStep opening o (.facade l) { o with system := t }
  | create {o : Objects} {op : Op} {command : Command} {t : System} {future : Future} {ticket : Nat}
      {object : FutureObject} (step : Step opening o.system (.send op command) t)
      (client : t.client = .awaiting future ticket) (built : future.object = some object) :
      ObjectStep opening o (.facade (.send op command)) { o with system := t, live := some object }
  | poll {o : Objects} {future : Future} {ticket : Nat} {object object' : FutureObject}
      {received : Poll (Except RecvError Reply)} (live : o.live = some object)
      (client : o.system.client = .awaiting future ticket) (receives : o.Receives ticket received)
      (polled : object.poll received = some (.ok .pending, object')) :
      ObjectStep opening o .pending { o with live := some object' }
  | yield {o : Objects} {future : Future} {ticket : Nat} {object object' : FutureObject}
      {received : Poll (Except RecvError Reply)} {yielded : Except AsyncOperationError Owned}
      (live : o.live = some object) (client : o.system.client = .awaiting future ticket)
      (receives : o.Receives ticket received)
      (polled : object.poll received = some (.ok (.ready yielded), object')) :
      ObjectStep opening o (.facade (yieldLabel ticket received))
        { o.setClient (resumed yielded) with live := none, ready := object' :: o.ready }
  | panic {o : Objects} {future : Future} {ticket : Nat} {object object' : FutureObject}
      {received : Poll (Except RecvError Reply)} {payload : Payload} (live : o.live = some object)
      (client : o.system.client = .awaiting future ticket) (receives : o.Receives ticket received)
      (polled : object.poll received = some (.error payload, object')) :
      ObjectStep opening o (.panicked payload)
        { o.setClient .gone with live := none, ready := object' :: o.ready }
  /-- The body of `drop` runs before the fields are dropped. -/
  | drop {o : Objects} {future : Future} {ticket : Nat} {object : FutureObject}
      {upgraded : Option Bool} {body : Native (SysResult Unit)} (live : o.live = some object)
      (client : o.system.client = .awaiting future ticket)
      (runs : object.dropBody upgraded = some body) :
      ObjectStep opening o (.facade .silent) (o.setClient (.cancelling body))
  | dropCall {o : Objects} {c : Call} {next : c.Response → Native (SysResult Unit)}
      {response : c.Response} (client : o.system.client = .cancelling (.call c next)) :
      ObjectStep opening o (.facade (.cancel ⟨c, response⟩)) (o.setClient (.cancelling (next response)))
  | dropFields {o : Objects} {object : FutureObject} (live : o.live = some object)
      (finished : (∃ result, o.system.client = .cancelling (.done result)) ∨
        ∃ future ticket upgraded, o.system.client = .awaiting future ticket ∧
          object.dropBody upgraded = none) :
      ObjectStep opening o (.facade .abandon) { o.setClient .gone with live := none }
  | dropReady {o : Objects} {before after : List FutureObject} {object : FutureObject}
      {upgraded : Option Bool} (ready : o.ready = before ++ object :: after) :
      ObjectStep opening o .dropped { o with
        ready := before ++ after
        leaving := (object.dropBody upgraded).toList.map (object, ·) ++ o.leaving }
  | leavingCall {o : Objects} {before after : List (FutureObject × Native (SysResult Unit))}
      {object : FutureObject} {c : Call} {next : c.Response → Native (SysResult Unit)}
      {response : c.Response} (leaving : o.leaving = before ++ (object, .call c next) :: after) :
      ObjectStep opening o (.cancel ⟨c, response⟩)
        { o with leaving := before ++ (object, next response) :: after }
  | left {o : Objects} {before after : List (FutureObject × Native (SysResult Unit))}
      {object : FutureObject} {result : SysResult Unit}
      (leaving : o.leaving = before ++ (object, .done result) :: after) :
      ObjectStep opening o .dropped { o with leaving := before ++ after }

/-! ### What the fields of the futures are -/

/-- The future that waits has all its fields, and those that were ready would
cancel nothing. -/
structure Objects.Intact (o : Objects) : Prop where
  live : ∀ future ticket, o.system.client = .awaiting future ticket → o.live = future.object
  waiting : o.live ≠ none → (∃ future ticket, o.system.client = .awaiting future ticket) ∨
    ∃ rest, o.system.client = .cancelling rest
  cancelling : ∀ rest, o.system.client = .cancelling rest → o.live ≠ none
  ready : ∀ object ∈ o.ready, ∀ upgraded, object.dropBody upgraded = none
  leaving : o.leaving = []

/-- What a step of the objects is to the facade. -/
def Simulates (opening : Opening) (s : System) : ObjectLabel → System → Prop
  | .facade l, t => Step opening s l t
  | .pending, t | .dropped, t => t = s
  | .panicked _, _ | .cancel _, _ => False

section

variable {opening : Opening} {o o' : Objects} {l : ObjectLabel}

/-- A cancellation is begun for a shutdown future only. -/
theorem Step.cancelling {s t : System} {l : Label} (step : Step opening s l t)
    {rest : Native (SysResult Unit)} (h : t.client = .cancelling rest) :
    s.client = .cancelling rest ∨ (∃ key raw ticket, s.client = .awaiting (.shutdown key raw) ticket) ∨
      ∃ c next, s.client = .cancelling (.call c next) := by
  cases step
  case cancel hClient => exact .inr (.inl ⟨_, _, _, hClient⟩)
  case cancelCall hClient => exact .inr (.inr ⟨_, _, hClient⟩)
  case consumeReply future ticket reply hClient received =>
    dsimp only at h
    cases hHandle : future.handle reply <;> rw [hHandle] at h <;> cases h
  all_goals first | exact .inl h | cases h

namespace Objects.Intact

/-- Steps of the facade that concern no future with fields. -/
theorem facade (h : o.Intact) {l : Label} {t : System} (step : Step opening o.system l t)
    (other : t.client = o.system.client ∨ o.live = none ∧
      ∀ future ticket, t.client = .awaiting future ticket → future.object = none) :
    Objects.Intact { o with system := t } := by
  rcases other with hSame | ⟨hNone, hPlain⟩
  · exact ⟨fun future ticket hClient => h.live future ticket (hSame.symm.trans hClient),
      hSame.symm ▸ h.waiting, fun rest hClient => h.cancelling rest (hSame.symm.trans hClient),
      h.ready, h.leaving⟩
  · refine ⟨fun future ticket hClient => hNone.trans (hPlain future ticket hClient).symm,
      fun hLive => absurd hNone hLive, fun rest hClient => ?_, h.ready, h.leaving⟩
    rcases step.cancelling hClient with hBefore | ⟨key, raw, ticket, hBefore⟩ | ⟨c, next, hBefore⟩
    · exact h.cancelling _ hBefore
    · have hLive := h.live _ _ hBefore
      rw [hNone] at hLive
      cases hLive
    · exact h.cancelling _ hBefore

/-- The client waits for a future, with the fields it was built with. -/
theorem create (h : o.Intact) {t : System} {future : Future} {ticket : Nat} {object : FutureObject}
    (client : t.client = .awaiting future ticket) (built : future.object = some object) :
    Objects.Intact { o with system := t, live := some object } where
  live future' ticket' hClient := by
    dsimp only at hClient ⊢
    rw [client] at hClient
    cases hClient
    exact built.symm
  waiting _ := .inl ⟨future, ticket, client⟩
  cancelling rest _ := Option.some_ne_none _
  ready := h.ready
  leaving := h.leaving

/-- The future is gone, or was ready. -/
theorem finish (h : o.Intact) {client : Client} {ready : List FutureObject}
    (hPlain : ∀ future ticket, client ≠ .awaiting future ticket)
    (hOver : ∀ rest, client ≠ .cancelling rest)
    (hReady : ∀ object ∈ ready, ∀ upgraded, object.dropBody upgraded = none) :
    Objects.Intact { o.setClient client with live := none, ready } where
  live future ticket hClient := absurd hClient (hPlain future ticket)
  waiting hLive := absurd rfl hLive
  cancelling rest hClient := absurd hClient (hOver rest)
  ready := hReady
  leaving := h.leaving

theorem object (h : o.Intact) {future : Future} {ticket : Nat} {object : FutureObject}
    (live : o.live = some object) (client : o.system.client = .awaiting future ticket) :
    future.object = some object := (h.live future ticket client).symm.trans live

end Objects.Intact

theorem resumed_plain (yielded : Except AsyncOperationError Owned) :
    (∀ future ticket, resumed yielded ≠ .awaiting future ticket) ∧
      ∀ rest, resumed yielded ≠ .cancelling rest := by
  unfold resumed
  split
  · exact ⟨by simp, by simp⟩
  · rename_i error
    cases error.state <;> exact ⟨by simp, by simp⟩

/-- A future that waits is not ready before its reply, and does not panic. -/
theorem polled {future : Future} {object object' : FutureObject} {ticket : Nat}
    {received : Poll (Except RecvError Reply)} {result : Except Payload (Poll _)}
    (built : future.object = some object) (receives : o.Receives ticket received)
    (hPoll : object.poll received = some (result, object')) :
    (received = .pending ∧ result = .ok .pending ∧ object' = object) ∨
      ∃ yielded, result = .ok (.ready yielded) ∧ (∀ upgraded, object'.dropBody upgraded = none) ∧
        (o.system.client = .awaiting future ticket →
          Step opening o.system (yieldLabel ticket received)
            { o.system with client := resumed yielded }) := by
  match received with
  | .pending => exact .inl ⟨rfl, poll_pending built hPoll⟩
  | .ready (.ok reply) =>
      obtain ⟨-, yielded, rfl, hResumed⟩ := @poll_ready _ _ _ none _ _ _ built hPoll
      refine .inr ⟨yielded, rfl, fun upgraded => (poll_ready built hPoll).1, fun client => ?_⟩
      rw [hResumed]
      exact .consumeReply client receives
  | .ready (.error _) =>
      obtain ⟨-, error, rfl⟩ := @poll_closed _ _ _ none _ _ built hPoll
      exact .inr ⟨_, rfl, fun upgraded => (poll_closed built hPoll).1,
        fun client => .consumeLost client receives.1 receives.2⟩

theorem Objects.Intact.step (h : o.Intact) (step : ObjectStep opening o l o') :
    o'.Intact ∧ Simulates opening o.system l o'.system := by
  cases step with
  | facade step other disconnected => exact ⟨h.facade step other, step⟩
  | create step client built => exact ⟨h.create client built, step⟩
  | poll live client receives hPoll =>
      have built := h.object live client
      rcases @polled _ opening _ _ _ _ _ _ _ built receives hPoll with ⟨-, -, rfl⟩ | ⟨yielded, hResult, -⟩
      · exact ⟨live ▸ h, rfl⟩
      · cases hResult
  | yield live client receives hPoll =>
      have built := h.object live client
      rcases @polled _ opening _ _ _ _ _ _ _ built receives hPoll with
        ⟨-, hResult, -⟩ | ⟨yielded, hResult, hQuiet, hStep⟩
      · cases hResult
      · cases hResult
        obtain ⟨hPlain, hOver⟩ := resumed_plain _
        refine ⟨h.finish hPlain hOver fun object hMem => ?_, hStep client⟩
        rcases List.mem_cons.mp hMem with rfl | hMem
        · exact hQuiet
        · exact h.ready object hMem
  | panic live client receives hPoll =>
      have built := h.object live client
      rcases @polled _ opening _ _ _ _ _ _ _ built receives hPoll with ⟨-, hResult, -⟩ | ⟨yielded, hResult, -⟩
      · cases hResult
      · cases hResult
  | @drop future ticket object upgraded body live client runs =>
      have built := h.object live client
      constructor
      · refine ⟨by simp [Objects.setClient], fun _ => .inr ⟨body, rfl⟩, ?_, h.ready, h.leaving⟩
        exact fun _ _ => live ▸ Option.some_ne_none object
      · cases future <;> cases built <;> cases upgraded <;> cases runs
        exact .cancel _ client
  | dropCall client =>
      refine ⟨⟨by simp [Objects.setClient], fun _ => .inr ⟨_, rfl⟩, ?_, h.ready, h.leaving⟩,
        .cancelCall client⟩
      exact fun _ _ => h.cancelling _ client
  | dropFields live finished =>
      refine ⟨h.finish (by simp) (by simp) h.ready, ?_⟩
      rcases finished with ⟨result, hClient⟩ | ⟨future, ticket, upgraded, hClient, -⟩
      · exact .abandon (by simp [hClient]) (by simp [hClient])
      · exact .abandon (by simp [hClient]) (by simp [hClient])
  | @dropReady before after object upgraded ready =>
      have hReady := h.ready
      rw [ready] at hReady
      have hNone := hReady object (by simp) upgraded
      refine ⟨⟨h.live, h.waiting, h.cancelling, fun other hMem => hReady other ?_, ?_⟩, rfl⟩
      · simp only [List.mem_append, List.mem_cons] at hMem ⊢
        exact hMem.imp_right .inr
      · simp [hNone, h.leaving]
  | leavingCall leaving => simp [h.leaving] at leaving
  | left leaving => simp [h.leaving] at leaving

variable {history : List ObjectLabel}

/-- The steps of the objects are steps of the facade. -/
theorem facade_of_run (run : Run (ObjectStep opening) .init₀ history o) :
    o.Intact ∧ Run (Step opening) .init₀ (facadeLabels history) o.system ∧
      (∀ event, .cancel event ∉ history) ∧ ∀ payload, .panicked payload ∉ history := by
  induction run with
  | refl =>
      refine ⟨⟨?_, ?_, ?_, ?_, rfl⟩, .refl, ?_, ?_⟩ <;> simp [Objects.init₀, System.init₀]
  | @snoc history o o' l run step ih =>
      obtain ⟨hIntact, run', hCancel, hPanic⟩ := ih
      obtain ⟨hIntact', hStep⟩ := hIntact.step step
      refine ⟨hIntact', ?_, ?_, ?_⟩
      · rw [facadeLabels, List.filterMap_append]
        have hSame (h : o'.system = o.system) : Run (Step opening) .init₀
            (facadeLabels history ++ []) o'.system := by
          rw [h, List.append_nil]
          exact run'
        cases l with
        | facade l => exact run'.snoc hStep
        | pending => exact hSame hStep
        | dropped => exact hSame hStep
        | panicked payload => exact hStep.elim
        | cancel event => exact hStep.elim
      · intro event hMem
        rcases List.mem_append.mp hMem with hMem | hMem
        · exact hCancel event hMem
        · obtain rfl := List.mem_singleton.mp hMem
          exact hStep
      · intro payload hMem
        rcases List.mem_append.mp hMem with hMem | hMem
        · exact hPanic payload hMem
        · obtain rfl := List.mem_singleton.mp hMem
          exact hStep

theorem mem_facadeLabels {l : Label} : l ∈ facadeLabels history ↔ .facade l ∈ history := by
  unfold facadeLabels
  rw [List.mem_filterMap]
  constructor
  · rintro ⟨l', hMem, hLabel⟩
    cases l' <;> cases hLabel
    exact hMem
  · intro hMem
    exact ⟨_, hMem, rfl⟩

end

end Tokio
end RestartManager
