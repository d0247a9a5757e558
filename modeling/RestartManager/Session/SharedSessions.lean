import RestartManager.Interaction.Interleaving
import RestartManager.Session.SessionKeys
import RestartManager.Tokio.NativeSafety
import RestartManager.Tokio.Registration

/-! A session is shared by its primary installer and any number of secondary
ones, in one process or in several. Their native calls interleave in any order,
and Windows keeps one session for all that hold its key. -/
namespace RestartManager

open Interaction Contract Program Interleaving

/-! ### Windows -/

/-- The units that Windows reads from a buffer. -/
def textOf (buffer : List UInt16) : List UInt16 := buffer.takeWhile (· ≠ 0)

/-- The session that each open handle of each process belongs to, by the text of
its key, and what has been registered with each session. -/
structure Windows (π : Type*) where
  session : π × UInt32 → Option (List UInt16)
  registered : List UInt16 → List Arrays

namespace Windows

variable {π : Type*} [DecidableEq π]

omit [DecidableEq π] in
def init : Windows π where
  session _ := none
  registered _ := []

/-- A handle is opened. -/
def openAs (w : Windows π) (handle : π × UInt32) (text : List UInt16) : Windows π :=
  { w with session := Function.update w.session handle (some text) }

def close (w : Windows π) (handle : π × UInt32) : Windows π :=
  { w with session := Function.update w.session handle none }

omit [DecidableEq π] in
/-- What is registered on a handle goes to its session. -/
def register (w : Windows π) (handle : π × UInt32) (arrays : Arrays) : Windows π :=
  match w.session handle with
  | none => w
  | some text =>
      { w with registered := Function.update w.registered text (w.registered text ++ [arrays]) }

end Windows

/-- The arrays as Windows reads them. -/
def Arrays.passed (fileCount : UInt32) (files : Option (List WideString)) (processCount : UInt32)
    (processes : Option (List RmUniqueProcess)) (serviceCount : UInt32)
    (services : Option (List WideString)) : Arrays :=
  ⟨fileCount, files.getD [], processCount, processes.getD [], serviceCount, services.getD []⟩

/-- The calls that open a handle. -/
def Call.Begins : Call → Prop
  | .rmStartSession | .rmJoinSession _ => True
  | _ => False

section

variable [Platform]

/-- Windows gives a process no handle that is still open there. Any call may
fail, and has no effect then. -/
def windowsContract {ι π : Type*} [DecidableEq π] (process : ι → π) :
    Contract (fun x : ι × Call => x.2.Response) (Windows π) where
  guarantee _ _ := True
  rely w x := match x.2 with
    | .rmStartSession => fun reply =>
        reply.code = ERROR_SUCCESS → w.session (process x.1, reply.raw) = none
    | .rmJoinSession _ => fun reply =>
        reply.code = ERROR_SUCCESS → w.session (process x.1, reply.raw) = none
    | _ => fun _ => True
  next w x := match x.2 with
    | .rmStartSession => fun reply =>
        if reply.code = ERROR_SUCCESS then w.openAs (process x.1, reply.raw) (textOf reply.key.toList) else w
    | .rmJoinSession key => fun reply =>
        if reply.code = ERROR_SUCCESS then w.openAs (process x.1, reply.raw) (textOf key.buffer) else w
    | .rmRegisterResources raw fileCount files processCount processes serviceCount services => fun code =>
        if code = ERROR_SUCCESS then w.register (process x.1, raw)
          (.passed fileCount files processCount processes serviceCount services)
        else w
    | .rmEndSession raw => fun code => if code = ERROR_SUCCESS then w.close (process x.1, raw) else w
    | _ => fun _ => w

/-! ### One party -/

/-- The handle of a party with the session it belongs to, and what the party has
registered with which session. -/
structure Membership where
  live : Option (UInt32 × List UInt16)
  registered : List (List UInt16 × Arrays)

omit [Platform] in
def Membership.init : Membership := ⟨none, []⟩

/-- A party calls on nothing but its own handle, and opens no second one. -/
def memberContract : Contract Call.Response Membership where
  guarantee m c := (∀ raw ∈ c.handle?, ∃ text, m.live = some (raw, text)) ∧ (c.Begins → m.live = none)
  rely _ _ _ := True
  next m c := match c with
    | .rmStartSession => fun reply =>
        if reply.code = ERROR_SUCCESS then { m with live := some (reply.raw, textOf reply.key.toList) } else m
    | .rmJoinSession key => fun reply =>
        if reply.code = ERROR_SUCCESS then { m with live := some (reply.raw, textOf key.buffer) } else m
    | .rmRegisterResources _ fileCount files processCount processes serviceCount services => fun code =>
        if code = ERROR_SUCCESS then
          { m with registered := m.registered ++ m.live.toList.map fun x =>
            (x.2, .passed fileCount files processCount processes serviceCount services) }
        else m
    | .rmEndSession _ => fun code => if code = ERROR_SUCCESS then { m with live := none } else m
    | _ => fun _ => m

/-- Safe calls are those of a party. -/
theorem CallsSafely.member {trace : Trace} (h : CallsSafely trace) :
    memberContract.Respects .init trace := by
  let Agrees (m : Membership) (s : Grants) : Prop := m.live.map Prod.fst = s.live
  have hInit : Agrees .init .none := rfl
  refine (respects_simulate memberContract ?_ hInit h).1
  intro m s c hAgrees hSafe
  obtain ⟨hHandle, -, hPermits⟩ := hSafe
  have hAgrees : m.live.map Prod.fst = s.live := hAgrees
  refine ⟨⟨?_, ?_⟩, ?_⟩
  · intro raw hRaw
    have hLive := hAgrees.trans (hHandle raw hRaw)
    obtain ⟨⟨raw', text⟩, hMember, rfl⟩ := Option.map_eq_some_iff.mp hLive
    exact ⟨text, hMember⟩
  · intro hBegins
    have hNone : s.live = none := by
      cases c <;> first | exact hPermits | exact hBegins.elim
    exact Option.map_eq_none_iff.mp (hAgrees.trans hNone)
  · intro response
    have hNone (hPermits : s.live = none) : m.live = none :=
      Option.map_eq_none_iff.mp (hAgrees.trans hPermits)
    cases c with
    | rmStartSession =>
        by_cases hCode : response.code = ERROR_SUCCESS
        · simp [Agrees, memberContract, safetyContract, hCode]
        · simp [Agrees, memberContract, safetyContract, hCode, hNone hPermits]
    | rmJoinSession key =>
        by_cases hCode : response.code = ERROR_SUCCESS
        · simp [Agrees, memberContract, safetyContract, hCode]
        · simp [Agrees, memberContract, safetyContract, hCode, hNone hPermits]
    | rmEndSession raw =>
        by_cases hCode : response = ERROR_SUCCESS
        · simp [Agrees, memberContract, safetyContract, hCode]
        · simpa [Agrees, memberContract, safetyContract, hCode] using hAgrees
    | rmRegisterResources =>
        by_cases hCode : response = ERROR_SUCCESS
        · simpa [Agrees, memberContract, safetyContract, hCode] using hAgrees
        · simpa [Agrees, memberContract, safetyContract, hCode] using hAgrees
    | _ => exact hAgrees

/-! ### All parties -/

section

variable {ι π : Type*} [DecidableEq ι] [DecidableEq π] {process : ι → π}

omit [DecidableEq π] in
/-- Every open handle belongs to the session of its party alone, and what a
session has is an interleaving of what its parties registered with it. -/
structure Shares (process : ι → π) (w : Windows π) (members : ι → Membership) : Prop where
  session : ∀ i raw text, (members i).live = some (raw, text) → w.session (process i, raw) = some text
  distinct : ∀ i j raw text text', process i = process j → (members i).live = some (raw, text) →
    (members j).live = some (raw, text') → i = j
  registered : ∀ text, ∃ merged : Interleaving ι Arrays, w.registered text = whole merged ∧
    ∀ i, part merged i = ((members i).registered.filter (·.1 = text)).map Prod.snd

variable {w : Windows π} {members : ι → Membership} {i : ι} {raw : UInt32} {text : List UInt16}

omit [Platform] in
theorem Shares.opened (h : Shares process w members) (hFresh : w.session (process i, raw) = none) :
    Shares process (w.openAs (process i, raw) text)
      (Function.update members i { members i with live := some (raw, text) }) := by
  have hOther (j : ι) (hj : j ≠ i) : Function.update members i { members i with live := some (raw, text) } j =
      members j := Function.update_of_ne hj _ _
  have hUsed (j : ι) (raw' : UInt32) (text' : List UInt16) (hLive : (members j).live = some (raw', text')) :
      (process j, raw') ≠ (process i, raw) := by
    intro hSame
    rw [← hSame, h.session j raw' text' hLive] at hFresh
    cases hFresh
  constructor
  case session =>
    intro j raw' text' hLive
    by_cases hj : j = i
    · subst hj
      rw [Function.update_self] at hLive
      cases hLive
      exact Function.update_self _ _ _
    · rw [hOther j hj] at hLive
      exact (Function.update_of_ne (hUsed j raw' text' hLive) _ _).trans (h.session j raw' text' hLive)
  case distinct =>
    intro j k raw' text' text'' hProcess hj hk
    by_cases hji : j = i <;> by_cases hki : k = i
    · exact hji.trans hki.symm
    · subst hji
      rw [Function.update_self] at hj
      rw [hOther k hki] at hk
      cases hj
      exact absurd (congrArg (·, _) hProcess.symm) (hUsed k _ _ hk)
    · subst hki
      rw [Function.update_self] at hk
      rw [hOther j hji] at hj
      cases hk
      exact absurd (congrArg (·, _) hProcess) (hUsed j _ _ hj)
    · rw [hOther j hji] at hj
      rw [hOther k hki] at hk
      exact h.distinct j k raw' text' text'' hProcess hj hk
  case registered =>
    intro text'
    obtain ⟨merged, hWhole, hParts⟩ := h.registered text'
    refine ⟨merged, hWhole, fun j => ?_⟩
    by_cases hj : j = i
    · subst hj
      rw [Function.update_self]
      exact hParts j
    · rw [hOther j hj]
      exact hParts j

omit [Platform] in
theorem Shares.closed (h : Shares process w members) (hLive : (members i).live = some (raw, text)) :
    Shares process (w.close (process i, raw)) (Function.update members i { members i with live := none }) := by
  have hOther (j : ι) (hj : j ≠ i) : Function.update members i { members i with live := none } j =
      members j := Function.update_of_ne hj _ _
  constructor
  case session =>
    intro j raw' text' hj
    by_cases hji : j = i
    · subst hji
      rw [Function.update_self] at hj
      cases hj
    · rw [hOther j hji] at hj
      have hHandle : (process j, raw') ≠ (process i, raw) := by
        intro hSame
        obtain ⟨hProcess, rfl⟩ := Prod.mk.inj hSame
        exact hji (h.distinct j i raw' text' text hProcess hj hLive)
      exact (Function.update_of_ne hHandle _ _).trans (h.session j raw' text' hj)
  case distinct =>
    intro j k raw' text' text'' hProcess hj hk
    by_cases hji : j = i
    · subst hji
      rw [Function.update_self] at hj
      cases hj
    by_cases hki : k = i
    · subst hki
      rw [Function.update_self] at hk
      cases hk
    rw [hOther j hji] at hj
    rw [hOther k hki] at hk
    exact h.distinct j k raw' text' text'' hProcess hj hk
  case registered =>
    intro text'
    obtain ⟨merged, hWhole, hParts⟩ := h.registered text'
    refine ⟨merged, hWhole, fun j => ?_⟩
    by_cases hj : j = i
    · subst hj
      rw [Function.update_self]
      exact hParts j
    · rw [hOther j hj]
      exact hParts j

omit [Platform] [DecidableEq π] in
theorem Shares.registers (h : Shares process w members) (hLive : (members i).live = some (raw, text))
    (arrays : Arrays) : Shares process (w.register (process i, raw) arrays) (Function.update members i
      { members i with registered := (members i).registered ++ [(text, arrays)] }) := by
  have hRegister : w.register (process i, raw) arrays =
      { w with registered := Function.update w.registered text (w.registered text ++ [arrays]) } := by
    simp only [Windows.register, h.session i raw text hLive]
  rw [hRegister]
  have hSame (j : ι) : (Function.update members i
      { members i with registered := (members i).registered ++ [(text, arrays)] } j).live =
        (members j).live := by
    by_cases hj : j = i
    · subst hj
      rw [Function.update_self]
    · rw [Function.update_of_ne hj]
  constructor
  case session =>
    intro j raw' text' hj
    exact h.session j raw' text' ((hSame j).symm.trans hj)
  case distinct =>
    intro j k raw' text' text'' hProcess hj hk
    exact h.distinct j k raw' text' text'' hProcess ((hSame j).symm.trans hj) ((hSame k).symm.trans hk)
  case registered =>
    intro text'
    obtain ⟨merged, hWhole, hParts⟩ := h.registered text'
    by_cases hText : text' = text
    · subst hText
      refine ⟨merged ++ [(i, arrays)], ?_, fun j => ?_⟩
      · simp only [Function.update_self, hWhole, whole, List.map_append, List.map_singleton]
      · rw [part_append, hParts j]
        by_cases hj : j = i
        · subst hj
          rw [Function.update_self, part_cons_self, List.filter_append, List.map_append]
          simp [part]
        · rw [Function.update_of_ne hj, part_cons_of_ne hj]
          exact List.append_nil _
    · refine ⟨merged, ?_, fun j => ?_⟩
      · exact (Function.update_of_ne hText _ _).trans hWhole
      · rw [hParts j]
        by_cases hj : j = i
        · subst hj
          rw [Function.update_self, List.filter_append, List.map_append]
          simp [Ne.symm hText]
        · rw [Function.update_of_ne hj]

/-- One exchange of one party. -/
theorem Shares.step {c : Call} {r : c.Response} (h : Shares process w members)
    (hMember : memberContract.guarantee (members i) c)
    (hWindows : (windowsContract process).rely w (i, c) r) :
    Shares process ((windowsContract process).next w (i, c) r)
      (Function.update members i (memberContract.next (members i) c r)) := by
  have hSame {w' : Windows π} {m : Membership} (hw : w' = w) (hm : m = members i) :
      Shares process w' (Function.update members i m) := by
    rw [hw, hm, Function.update_eq_self]
    exact h
  obtain ⟨hHandle, -⟩ := hMember
  cases c with
  | rmStartSession =>
      by_cases hCode : r.code = ERROR_SUCCESS
      · simp only [windowsContract, memberContract, if_pos hCode]
        exact h.opened (hWindows hCode)
      · exact hSame (if_neg hCode) (if_neg hCode)
  | rmJoinSession key =>
      by_cases hCode : r.code = ERROR_SUCCESS
      · simp only [windowsContract, memberContract, if_pos hCode]
        exact h.opened (hWindows hCode)
      · exact hSame (if_neg hCode) (if_neg hCode)
  | rmEndSession raw =>
      obtain ⟨text, hLive⟩ := hHandle raw rfl
      by_cases hCode : r = ERROR_SUCCESS
      · simp only [windowsContract, memberContract, if_pos hCode]
        exact h.closed hLive
      · exact hSame (if_neg hCode) (if_neg hCode)
  | rmRegisterResources raw fileCount files processCount processes serviceCount services =>
      obtain ⟨text, hLive⟩ := hHandle raw rfl
      by_cases hCode : r = ERROR_SUCCESS
      · have hOne (arrays : Arrays) :
            (members i).live.toList.map (fun x => (x.2, arrays)) = [(text, arrays)] := by
          rw [hLive]
          rfl
        simp only [windowsContract, memberContract, if_pos hCode, hOne]
        exact h.registers hLive _
      · exact hSame (if_neg hCode) (if_neg hCode)
  | _ => exact hSame rfl rfl

omit [Platform] [DecidableEq π] in
theorem Shares.init : Shares process .init fun _ : ι => .init where
  session _ _ _ hLive := by cases hLive
  distinct _ _ _ _ _ _ hLive := by cases hLive
  registered _ := ⟨[], rfl, fun _ => rfl⟩

/-- After any interleaving of parties that each call safely. -/
theorem shares_of_interleaving {history : Interleaving ι Event}
    (hParts : ∀ i, CallsSafely (part history i))
    (hWindows : (windowsContract process).Conforms .init (named history)) :
    Shares process ((windowsContract process).after .init (named history))
      fun i => memberContract.after .init (part history i) :=
  Interleaving.invariant (fun _ _ _ _ _ h hMember hRely => Shares.step h hMember hRely)
    (fun i => (hParts i).member) hWindows .init

end

/-! ### What one party registers -/

/-- A registration that Windows accepted. -/
def acceptedArrays? (event : Event) : Option Arrays :=
  match event with
  | ⟨.rmRegisterResources _ fileCount files processCount processes serviceCount services, code⟩ =>
      if code = ERROR_SUCCESS then
        some (.passed fileCount files processCount processes serviceCount services)
      else none
  | _ => none

def accepted (trace : Trace) : List Arrays := trace.filterMap acceptedArrays?

/-- The arrays are what a call made of the batch, with the absolute paths that
were found for its files right before. -/
def Registers (trace : Trace) (arrays : Arrays) (batch : ResourceBatch) : Prop :=
  ∃ resolving paths, resolving <:+: trace ∧ Resolves batch.files resolving paths ∧
    arrays.Images paths batch

omit [Platform] in
theorem pointerOrNull_getD {α : Type} (values : List α) : (pointerOrNull values).getD [] = values := by
  cases values <;> rfl

theorem accepted_call (arrays : Arrays) (raw code : UInt32) :
    accepted [⟨arrays.call raw, code⟩] = if code = ERROR_SUCCESS then [arrays] else [] := by
  have hPassed : Arrays.passed arrays.fileCount (pointerOrNull arrays.files) arrays.processCount
      (pointerOrNull arrays.processes) arrays.serviceCount (pointerOrNull arrays.services) = arrays := by
    simp only [Arrays.passed, pointerOrNull_getD]
  have hOne : acceptedArrays? ⟨arrays.call raw, code⟩ =
      if code = ERROR_SUCCESS then some (Arrays.passed arrays.fileCount (pointerOrNull arrays.files)
        arrays.processCount (pointerOrNull arrays.processes) arrays.serviceCount
        (pointerOrNull arrays.services)) else none := rfl
  rw [hPassed] at hOne
  unfold accepted
  by_cases hCode : code = ERROR_SUCCESS
  · rw [List.filterMap_cons_some (hOne.trans (if_pos hCode)), if_pos hCode]
    rfl
  · rw [List.filterMap_cons_none (hOne.trans (if_neg hCode)), if_neg hCode]
    rfl

section

variable {trace later more : Trace} {raw : UInt32} {batch : ResourceBatch} {result : Except Error Unit}

theorem accepted_append : accepted (trace ++ later) = accepted trace ++ accepted later :=
  List.filterMap_append

theorem accepted_of_registrations (h : registrations trace = []) : accepted trace = [] := by
  apply List.filterMap_eq_nil_iff.mpr
  intro event hMem
  have hOther := List.filter_eq_nil_iff.mp h event hMem
  obtain ⟨c, response⟩ := event
  cases c <;> first | rfl | exact absurd rfl hOther

theorem accepted_of_kind {P : Call → Prop} (hKind : ∀ event ∈ trace, P event.1)
    (hOther : ∀ c, P c → c.isRegistration = false) : accepted trace = [] := by
  apply accepted_of_registrations
  apply List.filter_eq_nil_iff.mpr
  intro event hMem
  rw [hOther _ (hKind event hMem)]
  exact Bool.false_ne_true

theorem Registers.append {arrays : Arrays} (h : Registers trace arrays batch) (first later : Trace) :
    Registers (first ++ trace ++ later) arrays batch := by
  obtain ⟨resolving, paths, hInfix, hRest⟩ := h
  exact ⟨resolving, paths, hInfix.trans (List.infix_append first trace later), hRest⟩

/-- A whole batch was accepted, and then the method succeeded, or nothing was. -/
theorem AllOrNothing.accepted (h : AllOrNothing raw batch trace result) :
    (result = .ok () ∧ batch.isEmpty = false ∧ ∃ arrays, accepted trace = [arrays] ∧
        Registers trace arrays batch) ∨
      (result = .ok () → batch.isEmpty = true) ∧ RestartManager.accepted trace = [] := by
  by_cases hNone : registrations trace = []
  · refine .inr ⟨fun hOk => ?_, accepted_of_registrations hNone⟩
    rcases h.none_iff.mp hNone with hEmpty | hRefused
    · exact hEmpty
    · obtain ⟨error, hError⟩ := h.refused hRefused
      rw [hOk] at hError
      cases hError
  · have hEmpty : batch.isEmpty = false := by
      by_contra hEmpty
      exact hNone (h.none_iff.mpr (.inl (Bool.not_eq_false _ ▸ hEmpty)))
    obtain ⟨resolving, paths, arrays, code, rfl, hResolves, hImages, hOk⟩ := h.once hNone
    rw [accepted_append, accepted_of_registrations hResolves.registrations_eq, accepted_call]
    by_cases hCode : code = ERROR_SUCCESS
    · refine .inl ⟨hOk.mpr hCode, hEmpty, arrays, if_pos hCode, resolving, paths, ?_, hResolves, hImages⟩
      exact (List.prefix_append _ _).isInfix
    · exact .inr ⟨fun hDone => absurd (hOk.mp hDone) hCode, if_neg hCode⟩

/-- The call is the last one, so nothing was accepted before the end. -/
theorem AllOrNothing.accepted_prefix (h : AllOrNothing raw batch (trace ++ more) result)
    (hMore : more ≠ []) : RestartManager.accepted trace = [] := by
  apply accepted_of_registrations
  by_cases hNone : registrations (trace ++ more) = []
  · rw [registrations, List.filter_append] at hNone
    exact (List.append_eq_nil_iff.mp hNone).1
  · obtain ⟨resolving, paths, arrays, code, hTrace, hResolves, -⟩ := h.once hNone
    obtain ⟨most, last, rfl⟩ := (List.eq_nil_or_concat more).resolve_left hMore
    rw [List.concat_eq_append, ← List.append_assoc] at hTrace
    obtain ⟨rfl, -⟩ := List.append_inj' hTrace rfl
    have hResolved := hResolves.registrations_eq
    rw [registrations, List.filter_append] at hResolved
    exact (List.append_eq_nil_iff.mp hResolved).1

end

/-! ### Installers -/

/-- The batch of a registration that returned a success. -/
def registeredBatch? (performed : Op × Output) : Option ResourceBatch :=
  match performed with
  | (op, .done (.ok _)) => op.batch?.filter fun batch => !batch.isEmpty
  | _ => none

/-- What was registered, in order. -/
def registeredBatches (log : List (Op × Output)) : List ResourceBatch := log.filterMap registeredBatch?

/-- An installer that opened a session, what it performed with what was returned,
its native calls, and what it holds. -/
inductive Logged (opening : Tokio.Opening) : SessionKey → List (Op × Output) → Trace → Value → Prop
  | opened {trace : Trace} {core : SessionCore} {value : Value}
      (run : opening.blocking.Exec trace (.ok value))
      (fresh : value = .session ⟨core⟩ ∨ value = .joined ⟨core⟩) :
      Logged opening core.key [] trace value
  | perform {key : SessionKey} {log : List (Op × Output)} {trace later : Trace} {value value' : Value}
      {op : Op} {output : Output} {p : Native (Value × Output)}
      (before : Logged opening key log trace value)
      (method : RestartManager.perform value op = some p) (run : p.Exec later (value', output)) :
      Logged opening key (log ++ [(op, output)]) (trace ++ later) value'

/-- An installer at any moment: opening, between two operations, waiting inside
one for the answer to a call, or dropping what it holds. -/
inductive Installer (opening : Tokio.Opening) : SessionKey → List (Op × Output) → Trace → Prop
  | opening {key : SessionKey} {trace : Trace} {p : Native (Except Error Value)}
      (run : opening.blocking.Steps trace p) : Installer opening key [] trace
  | idle {key : SessionKey} {log : List (Op × Output)} {trace : Trace} {value : Value}
      (run : Logged opening key log trace value) : Installer opening key log trace
  | performing {key : SessionKey} {log : List (Op × Output)} {trace later : Trace} {value : Value}
      {op : Op} {p : Native (Value × Output)} {c : Call} {next : c.Response → Native (Value × Output)}
      (before : Logged opening key log trace value) (method : RestartManager.perform value op = some p)
      (run : p.Steps later (.call c next)) : Installer opening key log (trace ++ later)
  | releasing {key : SessionKey} {log : List (Op × Output)} {trace later : Trace} {value : Value}
      {q : Native Unit} (before : Logged opening key log trace value)
      (run : value.drop.Steps later q) : Installer opening key log (trace ++ later)

section

variable {opening : Tokio.Opening} {key : SessionKey} {log : List (Op × Output)}
  {trace later : Trace} {value value' : Value} {op : Op} {output : Output} {batch : ResourceBatch}
  {p : Native (Value × Output)}

omit [Platform] in
theorem registeredBatches_snoc : registeredBatches (log ++ [(op, output)]) =
    registeredBatches log ++ (registeredBatch? (op, output)).toList := by
  rw [registeredBatches, List.filterMap_append]
  cases h : registeredBatch? (op, output) with
  | none => rw [List.filterMap_cons_none h]; rfl
  | some batch => rw [List.filterMap_cons_some h]; rfl

omit [Platform] in
/-- Nothing but a registration registers. -/
theorem Op.Allows.not_registration {c : Call} (h : op.Allows c) (hOp : op.batch? = none) :
    c.isRegistration = false := by
  cases op <;> cases hOp <;> cases c <;> first | rfl | exact h.elim

omit [Platform] in
theorem Op.Allows.not_begins {c : Call} (h : op.Allows c) : ¬c.Begins := by
  intro hBegins
  cases c <;> first | exact hBegins.elim | (cases op <;> exact h.elim)

/-- A registration is one of a session, and hands over its batch. -/
theorem exec_perform_register (method : perform value op = some p)
    (hOp : op.batch? = some batch) (run : p.Exec trace (value', output)) :
    ∃ raw result, output = .done result ∧ AllOrNothing raw batch trace result := by
  rw [perform_register value hOp] at method
  have hCore (core : SessionCore)
      (run : (borrowing value (core.registerResources batch) .done).Exec trace (value', output)) :
      ∃ raw result, output = .done result ∧ AllOrNothing raw batch trace result := by
    obtain ⟨first, last, result, rfl, hMethod, final⟩ := exec_bind_iff.mp run
    obtain ⟨rfl, hFinal⟩ := exec_done_iff.mp final
    cases hFinal
    rw [List.append_nil]
    exact ⟨core.handle.raw, result, rfl, core.registers_all_or_nothing hMethod⟩
  cases value with
  | session session =>
      cases method
      exact hCore session.core run
  | joined session =>
      cases method
      exact hCore session.core run
  | pending pending => cases method
  | completion completion => cases method
  | shutdownNotStarted error => cases method
  | restartNotStarted error => cases method
  | gone => cases method

/-- What an operation had accepted is the batch that it returned a success for. -/
theorem perform_registers (method : perform value op = some p) (run : p.Exec trace (value', output)) :
    List.Forall₂ (Registers trace) (accepted trace) (registeredBatch? (op, output)).toList := by
  cases hOp : op.batch? with
  | none =>
      have hNone : accepted trace = [] :=
        accepted_of_kind ((perform_makes method).events run) fun c h => h.not_registration hOp
      have hBatch : registeredBatch? (op, output) = none := by
        unfold registeredBatch?
        split
        · next hPair =>
            cases hPair
            rw [hOp]
            rfl
        · rfl
      rw [hNone, hBatch]
      exact .nil
  | some batch =>
      obtain ⟨raw, result, rfl, hAll⟩ := exec_perform_register method hOp run
      rcases hAll.accepted with ⟨rfl, hEmpty, arrays, hAccepted, hRegisters⟩ | ⟨hEmpty, hAccepted⟩
      · have hBatch : registeredBatch? (op, .done (.ok ())) = some batch := by
          simp [registeredBatch?, hOp, hEmpty]
        rw [hAccepted, hBatch]
        exact .cons hRegisters .nil
      · have hBatch : registeredBatch? (op, .done result) = none := by
          cases result with
          | ok value => simp [registeredBatch?, hOp, hEmpty rfl]
          | error error => rfl
        rw [hAccepted, hBatch]
        exact .nil

/-- An operation that waits for an answer had nothing accepted. -/
theorem performing_registers {c : Call} {next : c.Response → Native (Value × Output)}
    (method : perform value op = some p) (run : p.Steps trace (.call c next)) : accepted trace = [] := by
  cases hOp : op.batch? with
  | none => exact accepted_of_kind ((perform_makes method).events run) fun c h => h.not_registration hOp
  | some batch =>
      let answer (c : Call) : c.Response := c.answered.some
      obtain ⟨more, ⟨value', output⟩, rest⟩ := exists_exec answer (next (answer c))
      have whole : p.Exec (trace ++ ⟨c, answer c⟩ :: more) (value', output) := run.trans (.step rest)
      obtain ⟨raw, result, -, hAll⟩ := exec_perform_register method hOp whole
      exact hAll.accepted_prefix (List.cons_ne_nil _ _)

/-! ### The session of an installer -/

omit [Platform] in
theorem textOf_new {string : OsString} (h : 0 ∉ string.units) :
    textOf (WideString.new string).buffer = string.units := by
  have hUnits : ∀ unit ∈ string.units, (decide (unit ≠ 0)) = true := by
    intro unit hMem
    exact decide_eq_true fun hZero => h (hZero ▸ hMem)
  exact (List.takeWhile_append_of_pos hUnits).trans (List.append_nil _)

/-- A session that was opened is that of its key, and nothing was registered yet. -/
theorem opened_membership {core : SessionCore} (run : opening.blocking.Exec trace (.ok value))
    (hFresh : value = .session ⟨core⟩ ∨ value = .joined ⟨core⟩) : ∃ raw,
    memberContract.after .init trace = ⟨some (raw, core.key.asStr.units), []⟩ := by
  cases opening with
  | primary =>
      obtain ⟨first, second, created, rfl, hNew, final⟩ := exec_bind_iff.mp run
      obtain ⟨rfl, hValue⟩ := exec_done_iff.mp final
      obtain ⟨started, hStart, rfl⟩ := exec_map_iff.mp hNew
      obtain ⟨reply, hStarted⟩ := exec_recording hStart wp_started
      cases hStarted with
      | malformed => cases hValue
      | failed => cases hValue
      | @opened key hCode hKeyed =>
          have hCore : core = ⟨⟨reply.raw, false⟩, key⟩ := by
            rcases hFresh with rfl | rfl <;> cases hValue
            rfl
          subst hCore
          refine ⟨reply.raw, ?_⟩
          simp only [List.append_nil, after, memberContract, if_pos hCode, hKeyed]
          rw [textOf_new key.asStr_nulFree]
          rfl
  | joined key =>
      obtain ⟨first, second, joined, rfl, hJoin, final⟩ := exec_bind_iff.mp run
      obtain ⟨rfl, hValue⟩ := exec_done_iff.mp final
      rcases exec_run_bind_iff.mp hJoin with ⟨error, -, rfl⟩ | ⟨first, rest, core', rfl, hCore, hRest⟩
      · cases hValue
      obtain ⟨rfl, rfl⟩ := exec_done_iff.mp hRest
      obtain ⟨reply, rfl, hReply⟩ := exec_join hCore
      by_cases hCode : reply.code = ERROR_SUCCESS
      · have hOpened : core' = ⟨⟨reply.raw, false⟩, key⟩ := by
          rw [check, if_pos hCode] at hReply
          cases hReply
          rfl
        have hSame : core = core' := by
          rcases hFresh with rfl | rfl <;> cases hValue
          rfl
        subst hSame hOpened
        refine ⟨reply.raw, ?_⟩
        simp only [List.append_nil, after, memberContract, if_pos hCode]
        rw [textOf_new key.asStr_nulFree]
        rfl
      · rw [check, if_neg hCode] at hReply
        cases hReply

/-- What one call registers goes to the session of the handle. -/
theorem registered_next {m : Membership} {text : List UInt16} {c : Call} {r : c.Response}
    (hText : ∀ raw text', m.live = some (raw, text') → text' = text)
    (hMember : memberContract.guarantee m c) (hBegins : ¬c.Begins) :
    (memberContract.next m c r).registered =
        m.registered ++ (accepted [⟨c, r⟩]).map (fun arrays => (text, arrays)) ∧
      ∀ raw text', (memberContract.next m c r).live = some (raw, text') → text' = text := by
  have hSame {m' : Membership} {trace : Trace} (hm : m' = m) (hTrace : accepted trace = []) :
      m'.registered = m.registered ++ (accepted trace).map (fun arrays => (text, arrays)) ∧
        ∀ raw text', m'.live = some (raw, text') → text' = text := by
    rw [hm, hTrace]
    exact ⟨(List.append_nil _).symm, hText⟩
  cases c with
  | rmStartSession => exact absurd trivial hBegins
  | rmJoinSession => exact absurd trivial hBegins
  | rmEndSession raw =>
      by_cases hCode : r = ERROR_SUCCESS
      · simp only [memberContract, if_pos hCode]
        refine ⟨(List.append_nil _).symm, ?_⟩
        intro raw text' hLive
        cases hLive
      · exact hSame (if_neg hCode) rfl
  | rmRegisterResources raw fileCount files processCount processes serviceCount services =>
      obtain ⟨text', hLive⟩ := hMember.1 raw rfl
      obtain rfl := hText raw text' hLive
      by_cases hCode : r = ERROR_SUCCESS
      · have hAccepted : accepted [⟨.rmRegisterResources raw fileCount files processCount processes
            serviceCount services, r⟩] =
              [.passed fileCount files processCount processes serviceCount services] := by
          simp [accepted, acceptedArrays?, hCode]
        rw [hAccepted]
        simp only [memberContract, if_pos hCode, hLive]
        refine ⟨rfl, ?_⟩
        rintro _ _ ⟨⟩
        rfl
      · have hAccepted : accepted [⟨.rmRegisterResources raw fileCount files processCount processes
            serviceCount services, r⟩] = [] := by
          simp [accepted, acceptedArrays?, hCode]
        exact hSame (if_neg hCode) hAccepted
  | _ => exact hSame rfl rfl

/-- What is registered after the opening goes to the session of the handle. -/
theorem registered_after {m : Membership} {text : List UInt16}
    (hText : ∀ raw text', m.live = some (raw, text') → text' = text)
    (hRespects : memberContract.Respects m trace) (hBegins : ∀ event ∈ trace, ¬event.1.Begins) :
    (memberContract.after m trace).registered =
      m.registered ++ (accepted trace).map fun arrays => (text, arrays) := by
  induction trace generalizing m with
  | nil => exact (List.append_nil _).symm
  | cons event rest ih =>
      obtain ⟨c, r⟩ := event
      obtain ⟨hMember, hRest⟩ := hRespects
      obtain ⟨hRegistered, hLive⟩ := registered_next (r := r) hText hMember (hBegins _ List.mem_cons_self)
      have hLater (event : Event) (hMem : event ∈ rest) : ¬event.1.Begins :=
        hBegins event (List.mem_cons_of_mem _ hMem)
      have hAccepted : accepted (⟨c, r⟩ :: rest) = accepted [⟨c, r⟩] ++ accepted rest := by
        rw [← accepted_append, List.singleton_append]
      rw [after, ih hLive hRest hLater, hRegistered, hAccepted, List.map_append, List.append_assoc]

/-- An opening registers nothing. -/
theorem opening_makes (opening : Tokio.Opening) :
    Makes (fun c => c.isRegistration = false) opening.blocking := by
  cases opening with
  | primary =>
      have hStart : Makes (fun c => c.isRegistration = false) SessionCore.start :=
        SessionCore.wp_start rfl (fun _ _ _ _ => trivial) (fun _ _ _ => ⟨rfl, fun _ _ _ => trivial⟩)
          fun _ _ _ _ => trivial
      have hNew : Makes (fun c => c.isRegistration = false) RestartSession.new :=
        hStart.bind fun _ => makes_done _
      exact hNew.bind fun _ => makes_done _
  | joined key =>
      have hCore : Makes (fun c => c.isRegistration = false) (SessionCore.join key).run :=
        SessionCore.wp_join rfl (fun _ _ _ => trivial) fun _ _ _ _ => trivial
      have hJoin : Makes (fun c => c.isRegistration = false) (JoinedSession.join key).run :=
        hCore.run_bind fun _ => makes_done _
      exact hJoin.bind fun _ => makes_done _

/-- Without a registration, nothing is registered. -/
theorem registered_of_none {m : Membership} (h : ∀ event ∈ trace, event.1.isRegistration = false) :
    (memberContract.after m trace).registered = m.registered := by
  induction trace generalizing m with
  | nil => rfl
  | cons event rest ih =>
      obtain ⟨c, r⟩ := event
      have hHere : (memberContract.next m c r).registered = m.registered := by
        have hCall := h ⟨c, r⟩ List.mem_cons_self
        cases c with
        | rmRegisterResources => cases hCall
        | rmStartSession => simp only [memberContract, apply_ite Membership.registered, ite_self]
        | rmJoinSession key => simp only [memberContract, apply_ite Membership.registered, ite_self]
        | rmEndSession raw => simp only [memberContract, apply_ite Membership.registered, ite_self]
        | _ => rfl
      rw [after, ih fun event hMem => h event (List.mem_cons_of_mem _ hMem), hHere]

/-- What an installer has performed after it opened its session. -/
theorem Logged.split (h : Logged opening key log trace value) : ∃ first rest raw,
    trace = first ++ rest ∧ accepted first = [] ∧
      memberContract.after .init first = ⟨some (raw, key.asStr.units), []⟩ ∧
      (∀ event ∈ rest, ¬event.1.Begins) ∧
      List.Forall₂ (Registers rest) (accepted rest) (registeredBatches log) := by
  induction h with
  | @opened trace core value run hFresh =>
      obtain ⟨raw, hOpened⟩ := opened_membership run hFresh
      exact ⟨trace, [], raw, (List.append_nil _).symm,
        accepted_of_kind ((opening_makes opening).events run) fun _ h => h, hOpened, by simp, .nil⟩
  | @perform key log trace later value value' op output p before method run ih =>
      obtain ⟨first, rest, raw, rfl, hNone, hOpened, hBegins, hLog⟩ := ih
      refine ⟨first, rest ++ later, raw, List.append_assoc _ _ _, hNone, hOpened, ?_, ?_⟩
      · intro event hMem
        rcases List.mem_append.mp hMem with hMem | hMem
        · exact hBegins event hMem
        · exact ((perform_makes method).events run event hMem).not_begins
      · rw [accepted_append, registeredBatches_snoc]
        apply List.rel_append
        · exact hLog.imp fun _ _ h => by simpa using h.append [] later
        · exact (perform_registers method run).imp fun _ _ h => by simpa using h.append rest []

theorem Logged.blocking (h : Logged opening key log trace value) :
    ∃ ops last, Tokio.Blocking opening ops trace value last := by
  induction h with
  | opened run => exact ⟨_, _, .opened run⟩
  | perform before method run ih =>
      obtain ⟨ops, last, hBefore⟩ := ih
      exact ⟨_, _, hBefore.perform method run⟩

theorem Installer.callsSafely (h : Installer opening key log trace) : CallsSafely trace := by
  have hBlocking {ops : List Op} {flag : Bool} {trace : Trace}
      (run : Tokio.BlockingTrace opening ops flag trace) : CallsSafely trace :=
    run.respects keeps_held (blocking_safe opening)
  cases h with
  | opening run => exact hBlocking (.opening run)
  | idle run =>
      obtain ⟨ops, last, hRun⟩ := run.blocking
      exact hBlocking (.idle hRun)
  | performing before method run =>
      obtain ⟨ops, last, hBefore⟩ := before.blocking
      exact hBlocking (.performing hBefore method run)
  | releasing before run =>
      obtain ⟨ops, last, hBefore⟩ := before.blocking
      exact hBlocking (.releasing hBefore run)

/-- An installer has registered with its session what it returned a success for. -/
theorem Installer.registered (h : Installer opening key log trace) :
    (memberContract.after .init trace).registered =
        (accepted trace).map (fun arrays => (key.asStr.units, arrays)) ∧
      List.Forall₂ (Registers trace) (accepted trace) (registeredBatches log) := by
  have hRespects := h.callsSafely.member
  have hMore {trace later : Trace} {value : Value} (before : Logged opening key log trace value)
      (hNone : accepted later = []) (hBegins : ∀ event ∈ later, ¬event.1.Begins)
      (hRespects : memberContract.Respects .init (trace ++ later)) :
      (memberContract.after .init (trace ++ later)).registered =
          (accepted (trace ++ later)).map (fun arrays => (key.asStr.units, arrays)) ∧
        List.Forall₂ (Registers (trace ++ later)) (accepted (trace ++ later)) (registeredBatches log) := by
    obtain ⟨first, rest, raw, rfl, hFirst, hOpened, hRest, hLog⟩ := before.split
    rw [List.append_assoc, memberContract.respects_append, hOpened] at hRespects
    have hAccepted : accepted (first ++ rest ++ later) = accepted rest := by
      rw [accepted_append, accepted_append, hFirst, hNone, List.nil_append, List.append_nil]
    constructor
    · rw [hAccepted, List.append_assoc, memberContract.after_append, hOpened, registered_after _ hRespects.2]
      · rw [accepted_append, hNone, List.append_nil]
        rfl
      · intro event hMem
        exact (List.mem_append.mp hMem).elim (hRest event) (hBegins event)
      · rintro _ _ ⟨⟩
        rfl
    · rw [hAccepted]
      exact hLog.imp fun _ _ h => h.append first later
  cases h with
  | opening run =>
      have hEvents := (opening_makes opening).events run
      have hNone : accepted trace = [] := accepted_of_kind hEvents fun _ h => h
      rw [registered_of_none hEvents, hNone]
      exact ⟨rfl, .nil⟩
  | idle run =>
      have hNothing : accepted [] = [] := rfl
      have hIdle := hMore run hNothing (by simp) (by rwa [List.append_nil])
      rwa [List.append_nil] at hIdle
  | performing before method run =>
      exact hMore before (performing_registers method run)
        (fun event hMem => ((perform_makes method).events run event hMem).not_begins) hRespects
  | @releasing _ _ later value q before run =>
      have hMoves := (Value.drop_makes value).events run
      refine hMore before (accepted_of_kind hMoves ?_) ?_ hRespects
      · exact fun c h => @Op.Allows.not_registration .dropValue c h rfl
      · exact fun event hMem => @Op.Allows.not_begins .dropValue event.1 (hMoves event hMem)

end

omit [Platform] in
theorem SessionKey.asStr_inj {key key' : SessionKey} (h : key.asStr.units = key'.asStr.units) :
    key = key' := by
  have hStrings : key.asStr = key'.asStr := congrArg OsString.mk h
  have hBytes : key.value = key'.value :=
    Option.some.inj (key.asStr_intoString.symm.trans ((congrArg _ hStrings).trans key'.asStr_intoString))
  obtain ⟨digits, hValid⟩ := key
  cases hBytes
  rfl

/-- However the calls of installers interleave, and in whichever processes they
run, a session has what the installers that hold its key were told it has: the
batches of each in its order, whole, and nothing that one was told has failed. -/
theorem sessions_shared {ι π : Type*} [DecidableEq ι] [DecidableEq π] (process : ι → π)
    (openings : ι → Tokio.Opening) (keys : ι → SessionKey) (logs : ι → List (Op × Output))
    (history : Interleaving ι Event)
    (hInstallers : ∀ i, Installer (openings i) (keys i) (logs i) (part history i))
    (hWindows : (windowsContract process).Conforms .init (named history)) (key : SessionKey) :
    ∃ merged : Interleaving ι Arrays,
      ((windowsContract process).after .init (named history)).registered key.asStr.units = whole merged ∧
      ∀ i, List.Forall₂ (Registers (part history i)) (part merged i)
        (if keys i = key then registeredBatches (logs i) else []) := by
  have hShares := shares_of_interleaving (fun i => (hInstallers i).callsSafely) hWindows
  obtain ⟨merged, hWhole, hParts⟩ := hShares.registered key.asStr.units
  refine ⟨merged, hWhole, fun i => ?_⟩
  obtain ⟨hRegistered, hLog⟩ := (hInstallers i).registered
  rw [hParts i, hRegistered, List.filter_map, List.map_map]
  by_cases hKey : keys i = key
  · have hAll : (accepted (part history i)).filter
        ((fun x => decide (x.1 = key.asStr.units)) ∘ fun arrays => ((keys i).asStr.units, arrays)) =
          accepted (part history i) := by
      apply List.filter_eq_self.mpr
      intro arrays _
      exact decide_eq_true (hKey ▸ rfl)
    rw [hAll, if_pos hKey]
    exact (List.map_id _).symm ▸ hLog
  · have hNone : (accepted (part history i)).filter
        ((fun x => decide (x.1 = key.asStr.units)) ∘ fun arrays => ((keys i).asStr.units, arrays)) = [] := by
      apply List.filter_eq_nil_iff.mpr
      intro arrays _
      simpa using fun h => hKey (SessionKey.asStr_inj h)
    rw [hNone, if_neg hKey]
    exact .nil

end

section

attribute [local instance] Platform.driveLetters

/-- Two installers in two processes, whose handles have the same number. The
secondary one registers the process 9 after its first registration failed. -/
theorem sessions_shared_joined : ∃ merged : Interleaving Bool Arrays,
    whole merged = [⟨0, [], 1, [nativeUniqueProcess ⟨7, 1⟩], 0, []⟩,
      ⟨0, [], 1, [nativeUniqueProcess ⟨9, 1⟩], 0, []⟩] ∧
      (part merged true).length = 1 ∧ (part merged false).length = 1 := by
  let key : SessionKey := ⟨List.replicate 32 0x30, by decide⟩
  let opened : Event := ⟨.rmStartSession, ⟨ERROR_SUCCESS, 3, zeroKey⟩⟩
  let joined : Event := ⟨.rmJoinSession (.new key.asStr), ⟨ERROR_SUCCESS, 3⟩⟩
  let registers (pid code : UInt32) : Event :=
    ⟨.rmRegisterResources 3 0 none 1 (some [nativeUniqueProcess ⟨pid, 1⟩]) 0 none, code⟩
  let history : Interleaving Bool Event := [(true, opened), (false, joined),
    (false, registers 8 ERROR_WRITE_FAULT), (true, registers 7 ERROR_SUCCESS),
    (false, registers 9 ERROR_SUCCESS)]
  let openings (i : Bool) : Tokio.Opening := if i then .primary else .joined key
  let logs (i : Bool) : List (Op × Output) :=
    if i then [(.registerProcesses [⟨7, 1, by decide, by decide⟩], .done (.ok ()))]
    else [(.registerProcesses [⟨8, 1, by decide, by decide⟩],
        .done (.error (mapSysError (.os ERROR_WRITE_FAULT)))),
      (.registerProcesses [⟨9, 1, by decide, by decide⟩], .done (.ok ()))]
  have hInstallers : ∀ i, Installer (openings i) key (logs i) (part history i) := by
    intro i
    cases i with
    | true =>
        have run : Tokio.Opening.primary.blocking.Exec [opened] (.ok (.session ⟨⟨⟨3, false⟩, key⟩⟩)) :=
          .step (.refl _)
        have method : ∀ p, perform (.session ⟨⟨⟨3, false⟩, key⟩⟩)
            (.registerProcesses [⟨7, 1, by decide, by decide⟩]) = some p →
              p.Exec [registers 7 ERROR_SUCCESS] (.session ⟨⟨⟨3, false⟩, key⟩⟩, .done (.ok ())) := by
          rintro _ ⟨⟩
          exact .step (.refl _)
        exact .idle ((Logged.opened run (.inl rfl)).perform rfl (method _ rfl))
    | false =>
        have run : (Tokio.Opening.joined key).blocking.Exec [joined] (.ok (.joined ⟨⟨⟨3, false⟩, key⟩⟩)) :=
          .step (.refl _)
        have fails : ∀ p, perform (.joined ⟨⟨⟨3, false⟩, key⟩⟩)
            (.registerProcesses [⟨8, 1, by decide, by decide⟩]) = some p →
              p.Exec [registers 8 ERROR_WRITE_FAULT] (.joined ⟨⟨⟨3, false⟩, key⟩⟩,
                .done (.error (mapSysError (.os ERROR_WRITE_FAULT)))) := by
          rintro _ ⟨⟩
          exact .step (.refl _)
        have succeeds : ∀ p, perform (.joined ⟨⟨⟨3, false⟩, key⟩⟩)
            (.registerProcesses [⟨9, 1, by decide, by decide⟩]) = some p →
              p.Exec [registers 9 ERROR_SUCCESS] (.joined ⟨⟨⟨3, false⟩, key⟩⟩, .done (.ok ())) := by
          rintro _ ⟨⟩
          exact .step (.refl _)
        have first : Logged (.joined key) key ((logs false).take 1)
            [joined, registers 8 ERROR_WRITE_FAULT] (.joined ⟨⟨⟨3, false⟩, key⟩⟩) :=
          (Logged.opened run (.inr rfl)).perform rfl (fails _ rfl)
        exact .idle (first.perform rfl (succeeds _ rfl))
  have hWindows : (windowsContract (id : Bool → Bool)).Conforms .init (named history) :=
    ⟨fun _ => rfl, fun _ => rfl, trivial, trivial, trivial, trivial⟩
  obtain ⟨merged, hWhole, hParts⟩ := sessions_shared id openings (fun _ => key) logs history hInstallers
    hWindows key
  exact ⟨merged, hWhole.symm, (hParts true).length_eq, (hParts false).length_eq⟩

end

end RestartManager
