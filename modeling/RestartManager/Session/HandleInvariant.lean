import Mathlib.Data.Finset.Card
import RestartManager.Interaction.Mutex
import RestartManager.Session.Cancellation

/-! An invariant over one native handle: its references, its mutex, its flag
and the attempts to end its session. Every step of every thread keeps it. -/
namespace RestartManager

open Interaction Mutex Transition

variable [Platform]

/-- The code of an attempt to end the session. -/
def endCode? : Event → Option UInt32
  | ⟨.rmEndSession _, code⟩ => some code
  | _ => none

/-- The native session was started or joined. -/
def begins : Event → Bool
  | ⟨.rmStartSession, reply⟩ => reply.code = ERROR_SUCCESS
  | ⟨.rmJoinSession _, reply⟩ => reply.code = ERROR_SUCCESS
  | _ => false

namespace Cancellation

def Label.event? : Label → Option Event
  | .call _ event => some event
  | _ => none

def Label.endCodes (l : Label) : List UInt32 := (l.event?.bind endCode?).toList

/-- The codes of the attempts to end the session, in order. -/
def endCodes (history : List Label) : List UInt32 := history.flatMap Label.endCodes

def began (history : List Label) : Bool := history.any fun l => l.event?.any begins

theorem endCodes_append (first second : List Label) :
    endCodes (first ++ second) = endCodes first ++ endCodes second := List.flatMap_append

theorem endCodes_snoc (history : List Label) (l : Label) :
    endCodes (history ++ [l]) = endCodes history ++ l.endCodes := by
  simp [endCodes]

theorem began_snoc (history : List Label) (l : Label) :
    began (history ++ [l]) = (began history || l.event?.any begins) := by
  simp [began]

/-! ### Opening -/

/-- The two ways in which a session begins. -/
inductive Opening : Native (Except Error SessionCore) → Prop
  | start : Opening SessionCore.start
  | join (key : SessionKey) : Opening (SessionCore.join key).run

/-- Follows whether the session began and how its ends were answered. A
session is begun once, and ended only after it began and at most once. -/
def openingContract : Contract Call.Response (Bool × List UInt32) where
  guarantee s c := match c with
    | .rmStartSession | .rmJoinSession _ => s = (false, [])
    | .rmEndSession _ => s = (true, [])
    | .rmCancelCurrentTask _ => False
    | _ => True
  rely _ _ _ := True
  next s c response := (s.1 || begins ⟨c, response⟩, s.2 ++ (endCode? ⟨c, response⟩).toList)

/-- A session that is handed out is open, and any other one that began has
been ended. -/
def Opened : Except Error SessionCore → Bool × List UInt32 → Prop
  | .ok core, s => s = (true, []) ∧ core.handle.ended = false
  | .error _, s => s = (false, []) ∨ ∃ code, s = (true, [code])

/-- Either opening begins its session once, and ends it only where it hands none out. -/
theorem Opening.wp {start : Native (Except Error SessionCore)} (h : Opening start) :
    openingContract.wp start Opened (false, []) := by
  cases h with
  | start =>
      apply SessionCore.wp_start rfl
      · intro reply key hCode _
        exact ⟨by simp [openingContract, begins, endCode?, hCode], rfl⟩
      · intro reply hCode _
        have hNext : openingContract.next (false, []) .rmStartSession reply = (true, []) := by
          simp [openingContract, begins, endCode?, hCode]
        rw [hNext]
        exact ⟨rfl, fun code _ _ => .inr ⟨code, rfl⟩⟩
      · intro reply error hCode _
        exact .inl (by simp [openingContract, begins, endCode?, hCode])
  | join key =>
      apply SessionCore.wp_join rfl
      · intro reply hCode _
        exact ⟨by simp [openingContract, begins, endCode?, hCode], rfl⟩
      · intro reply error hCode _
        exact .inl (by simp [openingContract, begins, endCode?, hCode])

/-! ### References, sections and attempts -/

/-- While a reference is left, the attempts so far and the flag. -/
inductive Settled : List UInt32 → Bool → Prop
  | fresh : Settled [] false
  | ended : Settled [ERROR_SUCCESS] true
  | refused {code : UInt32} (h : code ≠ ERROR_SUCCESS) : Settled [code] false

/-- The attempts once the handle is destroyed. -/
inductive Exhausted : List UInt32 → Prop
  | once (code : UInt32) : Exhausted [code]
  | retried {first : UInt32} (h : first ≠ ERROR_SUCCESS) (second : UInt32) :
      Exhausted [first, second]

omit [Platform] in
/-- The first attempt raises the flag exactly if it succeeds. -/
theorem Settled.of_check (code : UInt32) : Settled [code] (check code).isOk := by
  unfold check
  by_cases h : code = ERROR_SUCCESS
  · rw [if_pos h, h]
    exact .ended
  · rw [if_neg h]
    exact .refused h

omit [Platform] in
theorem Settled.exhausted {codes : List UInt32} (h : Settled codes true) : Exhausted codes := by
  cases h
  exact .once _

omit [Platform] in
/-- The destructor makes the second attempt at most. -/
theorem Settled.drop {codes : List UInt32} (h : Settled codes false) (code : UInt32) :
    Exhausted (codes ++ [code]) := by
  cases h with
  | fresh => exact .once code
  | refused h => exact .retried h code

omit [Platform] in
theorem Settled.length_le {codes : List UInt32} {ended : Bool} (h : Settled codes ended) :
    codes.length ≤ 1 := by
  cases h <;> simp

omit [Platform] in
theorem Exhausted.length_le {codes : List UInt32} (h : Exhausted codes) : codes.length ≤ 2 := by
  cases h <;> simp

omit [Platform] in
/-- The flag says whether an attempt succeeded. -/
theorem Settled.ended_iff {codes : List UInt32} {ended : Bool} (h : Settled codes ended) :
    ERROR_SUCCESS ∈ codes ↔ ended = true := by
  cases h with
  | fresh => simp
  | ended => simp
  | refused h => simp [Ne.symm h]

/-- The number of strong references that the owner has. -/
def OwnerPhase.refs : OwnerPhase → Nat
  | .holding | .ending _ | .leaving => 1
  | _ => 0

def CancelPhase.Holds : CancelPhase → Prop
  | .upgraded | .cancelling _ | .leaving _ => True
  | _ => False

namespace State

/-- Inside the section that the mutex guards. -/
def Guards (s : State) : Agent → Prop
  | .owner => ∃ rest, s.owner = .ending rest
  | .canceller i => ∃ rest, s.canceller i = .cancelling rest

/-- Running the drop of the handle. -/
def Destroys (s : State) (rest : Native Unit) : Agent → Prop
  | .owner => s.owner = .releasing rest
  | .canceller i => ∃ result, s.canceller i = .releasing rest result

/-- Each strong reference is counted once. -/
def Counted (s : State) : Prop :=
  ∃ holders : Finset Nat, (∀ i, i ∈ holders ↔ (s.canceller i).Holds) ∧
    s.strong = s.owner.refs + holders.card

/-- How the references, the owner and the flag agree with the attempts. -/
inductive Attempts (s : State) : List UInt32 → Prop
  | held {codes : List UInt32} (alive : s.strong ≠ 0) (unlocked : ∀ rest, s.owner ≠ .ending rest)
      (untried : s.owner = .holding → codes = []) (settled : Settled codes s.handle.ended) :
      Attempts s codes
  | ending (h : s.owner = .ending s.handle.end) (live : s.handle.ended = false) : Attempts s []
  | answered {code : UInt32}
      (h : s.owner = .ending (.done (check code, { s.handle with ended := (check code).isOk }))) :
      Attempts s [code]
  | destroying {codes : List UInt32} {a : Agent} (gone : s.strong = 0)
      (h : s.Destroys s.handle.drop a) (alone : ∀ b rest, s.Destroys rest b → b = a)
      (live : s.handle.ended = false) (settled : Settled codes false) : Attempts s codes
  | destroyed {codes : List UInt32} (gone : s.strong = 0)
      (finished : ∀ a rest, s.Destroys rest a → rest = .done ()) (exhausted : Exhausted codes) :
      Attempts s codes

/-- A canceller inside its section has still to make its call, or has made it. -/
def Cancelling (s : State) : Prop :=
  ∀ i rest, s.canceller i = .cancelling rest →
    rest = s.handle.cancel.run ∨ ∃ code, rest = .done (check code)

/-- The handle is destroyed once no reference is left. -/
def Unreferenced (s : State) : Prop := ∀ a rest, s.Destroys rest a → s.strong = 0

/-- The handle belongs to the thread that opens the session. -/
structure Private (s : State) (opened : Bool × List UInt32) : Prop where
  free : s.holder = none
  idle : ∀ i, s.canceller i = .idle
  reached : opened = (false, []) ∨ opened = (true, []) ∨ ∃ code, opened = (true, [code])
  opening : (∃ rest, s.owner = .starting rest ∧ openingContract.wp rest Opened opened) ∨
    s.owner = .failed ∧ ∃ error, Opened (.error error) opened

/-- The handle is shared. -/
structure Public (s : State) (codes : List UInt32) : Prop where
  shared : s.Shared
  counted : s.Counted
  exclusive : Exclusive s.holder s.Guards
  cancelling : s.Cancelling
  unreferenced : s.Unreferenced
  attempts : s.Attempts codes

/-! ### Reference counting -/

section Counting

variable {s t : State} {i : Nat} {phase : CancelPhase}

/-- The owner's references and the count change alike. -/
theorem Counted.owner (h : s.Counted) (hCancel : t.canceller = s.canceller)
    (hCount : t.strong + s.owner.refs = s.strong + t.owner.refs) : t.Counted := by
  obtain ⟨holders, hHolds, hStrong⟩ := h
  exact ⟨holders, fun i => by rw [hCancel]; exact hHolds i, by omega⟩

/-- A canceller that moves changes who holds a reference at its own index only. -/
theorem holds_set {j : Nat} (hCancel : t.canceller = Function.update s.canceller i phase) :
    (t.canceller j).Holds ↔ if j = i then phase.Holds else (s.canceller j).Holds := by
  rw [hCancel, Function.update_apply]
  split <;> rfl

/-- A canceller moves and keeps what it holds. -/
theorem Counted.keep (h : s.Counted) (hCancel : t.canceller = Function.update s.canceller i phase)
    (hHolds : phase.Holds ↔ (s.canceller i).Holds) (hOwner : t.owner = s.owner)
    (hCount : t.strong = s.strong) : t.Counted := by
  obtain ⟨holders, hMem, hStrong⟩ := h
  refine ⟨holders, fun j => ?_, by rw [hCount, hOwner, hStrong]⟩
  rw [hMem, holds_set hCancel]
  by_cases hj : j = i
  · rw [if_pos hj, hHolds, hj]
  · rw [if_neg hj]

/-- A canceller upgrades its weak reference. -/
theorem Counted.gain (h : s.Counted) (hCancel : t.canceller = Function.update s.canceller i phase)
    (hPhase : phase.Holds) (hNot : ¬(s.canceller i).Holds) (hOwner : t.owner = s.owner)
    (hCount : t.strong = s.strong + 1) : t.Counted := by
  obtain ⟨holders, hMem, hStrong⟩ := h
  have hNew : i ∉ holders := fun hi => hNot ((hMem i).mp hi)
  refine ⟨insert i holders, fun j => ?_, ?_⟩
  · rw [Finset.mem_insert, hMem, holds_set hCancel]
    by_cases hj : j = i <;> simp [hj, hPhase]
  · rw [Finset.card_insert_of_notMem hNew, hCount, hOwner, hStrong, Nat.add_assoc]

/-- A canceller gives its reference back. -/
theorem Counted.lose (h : s.Counted) (hCancel : t.canceller = Function.update s.canceller i phase)
    (hPhase : ¬phase.Holds) (hHeld : (s.canceller i).Holds) (hOwner : t.owner = s.owner)
    (hCount : s.strong = t.strong + 1) : t.Counted := by
  obtain ⟨holders, hMem, hStrong⟩ := h
  have hOld : i ∈ holders := (hMem i).mpr hHeld
  refine ⟨holders.erase i, fun j => ?_, ?_⟩
  · rw [Finset.mem_erase, hMem, holds_set hCancel]
    by_cases hj : j = i <;> simp [hj, hPhase]
  · have := Finset.card_erase_add_one hOld
    rw [hOwner]
    omega

/-- The owner's reference is counted. -/
theorem Counted.owner_pos (h : s.Counted) (hRefs : s.owner.refs = 1) : s.strong ≠ 0 := by
  obtain ⟨holders, -, hStrong⟩ := h
  omega

/-- The reference of every canceller that has one is counted. -/
theorem Counted.canceller_pos (h : s.Counted) (hHolds : (s.canceller i).Holds) : s.strong ≠ 0 := by
  obtain ⟨holders, hMem, hStrong⟩ := h
  have := Finset.card_pos.mpr ⟨i, (hMem i).mpr hHolds⟩
  omega

/-- A canceller with the last reference has it alone. -/
theorem Counted.last (h : s.Counted) (hHolds : (s.canceller i).Holds) (hLast : s.strong = 1) :
    s.owner.refs = 0 := by
  obtain ⟨holders, hMem, hStrong⟩ := h
  have := Finset.card_pos.mpr ⟨i, (hMem i).mpr hHolds⟩
  omega

end Counting

/-! ### The methods as programs -/

section Programs

variable {handle : SessionHandle}

/-- An end of a live session makes one call, and the flag is what the call says. -/
theorem end_eq (h : handle.ended = false) : handle.end = .call (.rmEndSession handle.raw) fun code =>
    .done (check code, { handle with ended := (check code).isOk }) := by
  rw [SessionHandle.end, h]
  rfl

/-- The destructor calls only for a session that is not marked as ended. -/
theorem drop_eq : handle.drop = if handle.ended then .done () else
    .call (.rmEndSession handle.raw) fun _ => .done () := by
  unfold SessionHandle.drop
  cases handle.ended <;> rfl

/-- A cancellation asks the flag before its call. -/
theorem cancel_eq : handle.cancel.run = if handle.ended then .done (.error .sessionEnded) else
    .call (.rmCancelCurrentTask handle.raw) fun code => .done (check code) := by
  unfold SessionHandle.cancel
  cases handle.ended <;> rfl

end Programs

/-! ### Sections and destructors -/

section Guards

variable {s t : State} {a b : Agent} {i : Nat} {phase : CancelPhase} {rest : Native Unit}

/-- The owner's step moves no other thread into the section or out of it. -/
theorem guards_other_owner (hOther : b ≠ .owner) (hCancel : t.canceller = s.canceller) :
    t.Guards b ↔ s.Guards b := by
  cases b with
  | owner => exact absurd rfl hOther
  | canceller j => simp [Guards, hCancel]

/-- The step of a canceller moves no other thread into the section or out of it. -/
theorem guards_other (hOther : b ≠ .canceller i) (hOwner : t.owner = s.owner)
    (hCancel : t.canceller = Function.update s.canceller i phase) :
    t.Guards b ↔ s.Guards b := by
  cases b with
  | owner => simp [Guards, hOwner]
  | canceller j =>
      have hj : j ≠ i := fun h => hOther (h ▸ rfl)
      simp [Guards, hCancel, hj]

/-- The owner's step leaves the destructors of the others alone. -/
theorem destroys_other_owner (hOther : b ≠ .owner) (hCancel : t.canceller = s.canceller) :
    t.Destroys rest b ↔ s.Destroys rest b := by
  cases b with
  | owner => exact absurd rfl hOther
  | canceller j => simp [Destroys, hCancel]

/-- The step of a canceller leaves the destructors of the others alone. -/
theorem destroys_other (hOther : b ≠ .canceller i) (hOwner : t.owner = s.owner)
    (hCancel : t.canceller = Function.update s.canceller i phase) :
    t.Destroys rest b ↔ s.Destroys rest b := by
  cases b with
  | owner => simp [Destroys, hOwner]
  | canceller j =>
      have hj : j ≠ i := fun h => hOther (h ▸ rfl)
      simp [Destroys, hCancel, hj]

/-- A canceller that neither enters nor leaves the destructor changes none of them. -/
theorem destroys_keep (hOwner : t.owner = s.owner)
    (hCancel : t.canceller = Function.update s.canceller i phase)
    (hPhase : ∀ rest result, phase ≠ .releasing rest result)
    (hOld : ∀ rest result, s.canceller i ≠ .releasing rest result) (rest : Native Unit) (b : Agent) :
    t.Destroys rest b ↔ s.Destroys rest b := by
  by_cases hb : b = .canceller i
  · subst hb
    simp [Destroys, hCancel, hPhase, hOld]
  · exact destroys_other hb hOwner hCancel

end Guards

/-! ### Attempts -/

section Attempts

variable {s t : State} {codes : List UInt32} {a : Agent} {i : Nat} {phase : CancelPhase}

/-- A thread runs one destructor. -/
theorem Destroys.same {rest rest' : Native Unit} (h : s.Destroys rest a) (h' : s.Destroys rest' a) :
    rest = rest' := by
  cases a with
  | owner =>
      have hOwner : s.owner = .releasing rest := h
      exact OwnerPhase.releasing.inj (hOwner.symm.trans h')
  | canceller j =>
      obtain ⟨result, h⟩ := h
      obtain ⟨result', h'⟩ := h'
      exact (CancelPhase.releasing.inj (h.symm.trans h')).1

/-- Without a reference the owner is not in its section. -/
theorem Counted.not_ending (h : s.Counted) (hGone : s.strong = 0) (rest) :
    s.owner ≠ .ending rest := by
  intro hOwner
  exact h.owner_pos (by rw [hOwner]; rfl) hGone

/-- Outside the owner's section, and with a reference left. -/
theorem Attempts.alive (h : s.Attempts codes) (hAlive : s.strong ≠ 0)
    (hUnlocked : ∀ rest, s.owner ≠ .ending rest) :
    (s.owner = .holding → codes = []) ∧ Settled codes s.handle.ended := by
  cases h with
  | held _ _ untried settled => exact ⟨untried, settled⟩
  | ending h _ => exact absurd h (hUnlocked _)
  | answered h => exact absurd h (hUnlocked _)
  | destroying gone => exact absurd gone hAlive
  | destroyed gone => exact absurd gone hAlive

/-- A destructor that has a call to make is alone, and the call is its own. -/
theorem Attempts.of_call {c : Call} {next : c.Response → Native Unit} (h : s.Attempts codes)
    (hCounted : s.Counted) (hGone : s.strong = 0) (ha : s.Destroys (.call c next) a) :
    .call c next = s.handle.drop ∧ s.handle.ended = false ∧ Settled codes false ∧
      ∀ b rest, s.Destroys rest b → b = a := by
  cases h with
  | held alive => exact absurd hGone alive
  | ending h _ => exact absurd h (hCounted.not_ending hGone _)
  | answered h => exact absurd h (hCounted.not_ending hGone _)
  | destroying _ h alone live settled =>
      obtain rfl := alone _ _ ha
      exact ⟨ha.same h, live, settled, alone⟩
  | destroyed _ finished _ => cases finished _ _ ha

/-- A destructor that has returned has used up the attempts. -/
theorem Attempts.of_done (h : s.Attempts codes) (hCounted : s.Counted) (hGone : s.strong = 0)
    (ha : s.Destroys (.done ()) a) :
    Exhausted codes ∧ ∀ b rest, s.Destroys rest b → rest = .done () := by
  cases h with
  | held alive => exact absurd hGone alive
  | ending h _ => exact absurd h (hCounted.not_ending hGone _)
  | answered h => exact absurd h (hCounted.not_ending hGone _)
  | destroying _ h alone live _ =>
      obtain rfl := alone _ _ ha
      have hDrop := ha.same h
      rw [drop_eq, live] at hDrop
      cases hDrop
  | destroyed _ finished exhausted => exact ⟨exhausted, finished⟩

/-- A step that concerns neither the owner nor the last reference. -/
theorem Attempts.keep (h : s.Attempts codes) (hHandle : t.handle = s.handle)
    (hOwner : t.owner = s.owner) (hStrong : t.strong = 0 ↔ s.strong = 0)
    (hDestroys : ∀ rest b, t.Destroys rest b ↔ s.Destroys rest b) : t.Attempts codes := by
  cases h with
  | held alive unlocked untried settled =>
      refine .held (fun h => alive (hStrong.mp h)) ?_ ?_ ?_
      · rwa [hOwner]
      · rwa [hOwner]
      · rwa [hHandle]
  | ending h live => exact .ending (by rw [hOwner, hHandle, h]) (by rw [hHandle, live])
  | answered h => exact .answered (by rw [hOwner, hHandle, h])
  | destroying gone h alone live settled =>
      refine .destroying (hStrong.mpr gone) ((hDestroys _ _).mpr (hHandle ▸ h)) ?_ ?_ settled
      · exact fun b rest hb => alone b rest ((hDestroys rest b).mp hb)
      · rw [hHandle, live]
  | destroyed gone finished exhausted =>
      exact .destroyed (hStrong.mpr gone)
        (fun b rest hb => finished b rest ((hDestroys rest b).mp hb)) exhausted

/-- The step that gives the last reference away. -/
theorem Attempts.release (hSettled : Settled codes s.handle.ended)
    (hNone : ∀ b rest, ¬s.Destroys rest b) (hGone : t.strong = 0) (hHandle : t.handle = s.handle)
    (ha : t.Destroys s.handle.drop a)
    (hOther : ∀ rest b, b ≠ a → (t.Destroys rest b ↔ s.Destroys rest b)) : t.Attempts codes := by
  have hAlone (b) (rest) (hb : t.Destroys rest b) : b = a := by
    by_contra hNe
    exact hNone b rest ((hOther rest b hNe).mp hb)
  cases hEnded : s.handle.ended with
  | false =>
      rw [hEnded] at hSettled
      exact .destroying hGone (by rwa [hHandle]) hAlone (by rw [hHandle, hEnded]) hSettled
  | true =>
      rw [hEnded] at hSettled
      refine .destroyed hGone (fun b rest hb => ?_) hSettled.exhausted
      obtain rfl := hAlone b rest hb
      rw [hb.same ha, drop_eq, hEnded]
      rfl

/-- The end that a destructor attempts. -/
theorem Attempts.destroy {c : Call} {next : c.Response → Native Unit} {response : c.Response}
    (h : s.Attempts codes) (hCounted : s.Counted) (hGone : s.strong = 0)
    (ha : s.Destroys (.call c next) a) (hCount : t.strong = s.strong)
    (hNext : t.Destroys (next response) a)
    (hOther : ∀ rest b, b ≠ a → (t.Destroys rest b ↔ s.Destroys rest b)) :
    t.Attempts (codes ++ (endCode? ⟨c, response⟩).toList) := by
  obtain ⟨hDrop, hLive, hSettled, hAlone⟩ := h.of_call hCounted hGone ha
  rw [drop_eq, hLive] at hDrop
  cases hDrop
  refine .destroyed (hCount.trans hGone) (fun b rest hb => ?_) (hSettled.drop response)
  by_cases hb' : b = a
  · obtain rfl := hb'
    exact hb.same hNext
  · exact absurd (hAlone b rest ((hOther rest b hb').mp hb)) hb'

/-- A destructor returns. -/
theorem Attempts.destroyed_return (h : s.Attempts codes) (hCounted : s.Counted)
    (hGone : s.strong = 0) (ha : s.Destroys (.done ()) a) (hCount : t.strong = s.strong)
    (hNot : ∀ rest, ¬t.Destroys rest a)
    (hOther : ∀ rest b, b ≠ a → (t.Destroys rest b ↔ s.Destroys rest b)) : t.Attempts codes := by
  obtain ⟨hExhausted, hOver⟩ := h.of_done hCounted hGone ha
  refine .destroyed (hCount.trans hGone) (fun b rest hb => ?_) hExhausted
  by_cases hb' : b = a
  · exact absurd (hb' ▸ hb) (hNot rest)
  · exact hOver b rest ((hOther rest b hb').mp hb)

end Attempts

/-! ### Steps -/

section Steps

variable {s t : State} {l : Label} {codes : List UInt32}

/-- A handle that was shared stays so. -/
theorem Shared.step (h : s.Shared) (step : Step s l t) : t.Shared := by
  cases step with
  | startCall h' | started h' | startFailed h' => simp [Shared, h'] at h
  | lockEnd | endCall | unlockEnd | ownerReleasingCall | ownerReleased => trivial
  | @ownerRelease n h' hCount => by_cases hLast : n = 0 <;> simp [Shared, hLast]
  | upgrade | upgradeFailed | lockCancel | cancelCall | unlockCancel | cancelRelease | cancelLast
  | cancelReleasingCall | cancelReleased => exact h

/-- Every step keeps the count: one case for each way to move a reference. -/
theorem Counted.step (h : s.Counted) (hShared : s.Shared) (step : Step s l t) : t.Counted := by
  cases step with
  | startCall h' | started h' | startFailed h' => simp [Shared, h'] at hShared
  | lockEnd h' _ => exact h.owner rfl (by simp [OwnerPhase.refs, h'])
  | endCall h' => exact h.owner rfl (by simp [OwnerPhase.refs, h'])
  | unlockEnd h' => exact h.owner rfl (by simp [OwnerPhase.refs, h'])
  | @ownerRelease n h' hCount =>
      have hRefs : s.owner.refs = 1 := by
        rcases h' with h' | h' <;> rw [h'] <;> rfl
      refine h.owner rfl ?_
      rw [hRefs, hCount]
      by_cases hLast : n = 0 <;> simp [OwnerPhase.refs, hLast]
  | ownerReleasingCall h' => exact h.owner rfl (by simp [OwnerPhase.refs, h'])
  | ownerReleased h' => exact h.owner rfl (by simp [OwnerPhase.refs, h'])
  | upgrade h' _ _ => exact h.gain rfl trivial (by simp [CancelPhase.Holds, h']) rfl rfl
  | upgradeFailed => exact h
  | lockCancel h' _ => exact h.keep rfl (by simp [CancelPhase.Holds, h']) rfl rfl
  | cancelCall h' => exact h.keep rfl (by simp [CancelPhase.Holds, h']) rfl rfl
  | unlockCancel h' => exact h.keep rfl (by simp [CancelPhase.Holds, h']) rfl rfl
  | cancelRelease h' hCount => exact h.lose rfl id (by simp [CancelPhase.Holds, h']) rfl hCount
  | cancelLast h' hCount => exact h.lose rfl id (by simp [CancelPhase.Holds, h']) rfl hCount
  | cancelReleasingCall h' => exact h.keep rfl (by simp [CancelPhase.Holds, h']) rfl rfl
  | cancelReleased h' => exact h.keep rfl (by simp [CancelPhase.Holds, h']) rfl rfl

/-- Every step keeps the mutex exclusive. -/
theorem Public.exclusive_step (h : s.Public codes) (step : Step s l t) :
    Exclusive t.holder t.Guards := by
  have hShared := h.shared
  cases step with
  | startCall h' | started h' | startFailed h' => simp [Shared, h'] at hShared
  | lockEnd _ hFree =>
      exact h.exclusive.lock hFree rfl ⟨_, rfl⟩ fun b hb => guards_other_owner hb rfl
  | unlockEnd h' =>
      have hHeld : s.Guards .owner := ⟨_, h'⟩
      exact h.exclusive.unlock hHeld rfl nofun fun b hb => guards_other_owner hb rfl
  | @ownerRelease n h' _ =>
      refine h.exclusive.keep .owner rfl ?_ fun b hb => guards_other_owner hb rfl
      by_cases hLast : n = 0 <;> rcases h' with h' | h' <;> simp [Guards, h', hLast]
  | endCall h' | ownerReleasingCall h' | ownerReleased h' =>
      refine h.exclusive.keep .owner rfl ?_ fun b hb => guards_other_owner hb rfl
      simp [Guards, h']
  | upgradeFailed => exact h.exclusive
  | @lockCancel i _ hFree =>
      refine h.exclusive.lock hFree rfl ?_ fun b hb => guards_other hb rfl rfl
      simp [Guards, setCanceller]
  | @unlockCancel i _ h' =>
      have hHeld : s.Guards (.canceller i) := ⟨_, h'⟩
      refine h.exclusive.unlock hHeld rfl ?_ fun b hb => guards_other hb rfl rfl
      simp [Guards, setCanceller]
  | @upgrade i h' | @cancelCall i _ _ _ h' | @cancelRelease i _ _ h' | @cancelLast i _ h'
  | @cancelReleasingCall i _ _ _ _ h' | @cancelReleased i _ h' =>
      refine h.exclusive.keep (.canceller i) rfl ?_ fun b hb => guards_other hb rfl rfl
      simp [Guards, setCanceller, h']

/-- The call of a canceller in its section is the one native cancellation. -/
theorem Cancelling.of_call {i : Nat} {c : Call} {next : c.Response → Native (SysResult Unit)}
    (h : s.Cancelling) (hCall : s.canceller i = .cancelling (.call c next)) :
    s.handle.ended = false ∧
      Program.call c next = .call (.rmCancelCurrentTask s.handle.raw) fun code =>
        .done (check code) := by
  obtain hRun | ⟨code, hDone⟩ := h _ _ hCall
  · rw [cancel_eq] at hRun
    by_cases hEnded : s.handle.ended = true
    · rw [if_pos hEnded] at hRun
      cases hRun
    · rw [if_neg hEnded] at hRun
      exact ⟨Bool.eq_false_of_not_eq_true hEnded, hRun⟩
  · cases hDone

/-- What a canceller has still to do is kept by every step. -/
theorem Cancelling.step (h : s.Public codes) (step : Step s l t) : t.Cancelling := by
  have hSet {i : Nat} {phase : CancelPhase} {t : State} (hHandle : t.handle = s.handle)
      (hCancel : t.canceller = Function.update s.canceller i phase)
      (hPhase : ∀ rest, phase = .cancelling rest →
        rest = s.handle.cancel.run ∨ ∃ code, rest = .done (check code)) : t.Cancelling := by
    intro j rest hj
    rw [hHandle]
    by_cases hi : j = i
    · rw [hCancel, hi, Function.update_self] at hj
      exact hPhase rest hj
    · rw [hCancel, Function.update_of_ne hi] at hj
      exact h.cancelling j rest hj
  cases step with
  | startCall h' | started h' | startFailed h' =>
      have := h.shared
      simp [Shared, h'] at this
  | unlockEnd h' =>
      -- the owner has the mutex, so no canceller has read the flag
      intro j rest hj
      have hOwner : s.Guards .owner := ⟨_, h'⟩
      have hOther : s.Guards (.canceller j) := ⟨_, hj⟩
      cases h.exclusive.same hOwner hOther
  | lockEnd | endCall | ownerRelease | ownerReleasingCall | ownerReleased | upgradeFailed =>
      exact h.cancelling
  | lockCancel =>
      refine hSet rfl rfl fun rest hRest => .inl ?_
      exact (CancelPhase.cancelling.inj hRest).symm
  | @cancelCall i _ _ response h' =>
      refine hSet rfl rfl fun rest hRest => .inr ?_
      cases CancelPhase.cancelling.inj hRest
      cases (h.cancelling.of_call h').2
      exact ⟨response, rfl⟩
  | upgrade | unlockCancel | cancelRelease | cancelLast | cancelReleasingCall | cancelReleased =>
      exact hSet rfl rfl nofun

/-- Once no reference is left, none is made. -/
theorem strong_zero (hShared : s.Shared) (hGone : s.strong = 0) (step : Step s l t) :
    t.strong = 0 := by
  cases step with
  | startCall h' | started h' | startFailed h' => simp [Shared, h'] at hShared
  | upgrade _ _ alive => exact absurd hGone alive
  | ownerRelease _ hCount | cancelRelease _ hCount => simp [hGone] at hCount
  | cancelLast => rfl
  | _ => exact hGone

/-- A destructor runs only when the last reference is gone, after any step. -/
theorem Unreferenced.step (h : s.Public codes) (step : Step s l t) : t.Unreferenced := by
  intro b rest hb
  by_cases hOld : ∃ rest, s.Destroys rest b
  · obtain ⟨rest', hb'⟩ := hOld
    exact strong_zero h.shared (h.unreferenced b rest' hb') step
  · cases b with
    | owner =>
        have hOwner : t.owner = .releasing rest := hb
        cases step with
        | started h' | startCall h' | startFailed h' =>
            have := h.shared
            simp [Shared, h'] at this
        | @ownerRelease n =>
            by_cases hLast : n = 0
            · exact hLast
            · simp [hLast] at hOwner
        | ownerReleasingCall h' => exact absurd ⟨_, h'⟩ hOld
        | lockEnd | endCall | unlockEnd | ownerReleased => cases hOwner
        | cancelLast => rfl
        | _ => exact absurd ⟨rest, hOwner⟩ hOld
    | canceller j =>
        obtain ⟨result, hCancel⟩ := hb
        cases step with
        | cancelLast => rfl
        | @cancelReleasingCall i _ _ _ _ h' =>
            by_cases hj : j = i
            · subst hj
              exact absurd ⟨_, _, h'⟩ hOld
            · rw [setCanceller_of_ne _ _ _ hj] at hCancel
              exact absurd ⟨rest, result, hCancel⟩ hOld
        | @upgrade i | @lockCancel i | @cancelCall i | @unlockCancel i | @cancelRelease i
        | @cancelReleased i =>
            by_cases hj : j = i
            · simp [setCanceller, hj] at hCancel
            · rw [setCanceller_of_ne _ _ _ hj] at hCancel
              exact absurd ⟨rest, result, hCancel⟩ hOld
        | _ => exact absurd ⟨rest, result, hCancel⟩ hOld

/-- Inside its section, the owner has still to make its attempt, or it was answered. -/
theorem Public.of_ending (h : s.Public codes) {rest : Native (SysResult Unit × SessionHandle)}
    (hOwner : s.owner = .ending rest) :
    (codes = [] ∧ s.handle.ended = false ∧
      rest = .call (.rmEndSession s.handle.raw) fun code =>
        .done (check code, { s.handle with ended := (check code).isOk })) ∨
    ∃ code, codes = [code] ∧
      rest = .done (check code, { s.handle with ended := (check code).isOk }) := by
  have hAlive := h.counted.owner_pos (by rw [hOwner]; rfl)
  cases h.attempts with
  | held _ unlocked => exact absurd hOwner (unlocked _)
  | ending h' live =>
      have hEnd := OwnerPhase.ending.inj (hOwner.symm.trans h')
      rw [end_eq live] at hEnd
      exact .inl ⟨rfl, live, hEnd⟩
  | answered h' => exact .inr ⟨_, rfl, OwnerPhase.ending.inj (hOwner.symm.trans h')⟩
  | destroying gone => exact absurd gone hAlive
  | destroyed gone => exact absurd gone hAlive

/-- The main step lemma: each step adds the attempts of its own label. -/
theorem Attempts.step (h : s.Public codes) (step : Step s l t) : t.Attempts (codes ++ l.endCodes) := by
  have hSilent : codes ++ [] = codes := List.append_nil codes
  have hUnreleased (hAlive : s.strong ≠ 0) (rest) (b) : ¬s.Destroys rest b :=
    fun hb => hAlive (h.unreferenced b rest hb)
  cases step with
  | startCall h' | started h' | startFailed h' =>
      have := h.shared
      simp [Shared, h'] at this
  | lockEnd h' _ =>
      have hAlive := h.counted.owner_pos (by rw [h']; rfl)
      obtain ⟨hUntried, hSettled⟩ := h.attempts.alive hAlive (by simp [h'])
      obtain rfl := hUntried h'
      cases hEnded : s.handle.ended with
      | false => exact .ending rfl hEnded
      | true =>
          rw [hEnded] at hSettled
          cases hSettled
  | @endCall c next response h' =>
      obtain ⟨rfl, -, hEnd⟩ | ⟨code, -, hEnd⟩ := h.of_ending h'
      · cases hEnd
        exact .answered rfl
      · cases hEnd
  | @unlockEnd result handle h' =>
      have hAlive := h.counted.owner_pos (by rw [h']; rfl)
      rw [show Label.endCodes .silent = [] from rfl, hSilent]
      obtain ⟨-, -, hEnd⟩ | ⟨code, rfl, hEnd⟩ := h.of_ending h'
      · cases hEnd
      · cases hEnd
        exact .held hAlive nofun nofun (.of_check _)
  | @ownerRelease n h' hCount =>
      have hAlive : s.strong ≠ 0 := by omega
      obtain ⟨-, hSettled⟩ := h.attempts.alive hAlive (by rcases h' with h' | h' <;> simp [h'])
      rw [show Label.endCodes .silent = [] from rfl, hSilent]
      by_cases hLast : n = 0
      · refine @Attempts.release _ s _ codes .owner hSettled (fun b rest => hUnreleased hAlive rest b)
          hLast rfl ?_ fun rest b hb => destroys_other_owner hb rfl
        simp [Destroys, hLast]
      · exact .held hLast (by simp [hLast]) (by simp [hLast]) hSettled
  | ownerReleasingCall h' =>
      have ha : s.Destroys _ .owner := h'
      exact h.attempts.destroy h.counted (h.unreferenced _ _ ha) ha rfl rfl
        fun rest b hb => destroys_other_owner hb rfl
  | ownerReleased h' =>
      have ha : s.Destroys _ .owner := h'
      rw [show Label.endCodes .silent = [] from rfl, hSilent]
      exact h.attempts.destroyed_return h.counted (h.unreferenced _ _ ha) ha rfl nofun
        fun rest b hb => destroys_other_owner hb rfl
  | @upgrade i h' _ alive =>
      rw [show Label.endCodes .silent = [] from rfl, hSilent]
      exact h.attempts.keep rfl rfl (by simp [setCanceller, alive])
        (destroys_keep rfl rfl nofun (by simp [h']))
  | upgradeFailed => exact hSilent.symm ▸ h.attempts
  | lockCancel h' =>
      rw [show Label.endCodes .silent = [] from rfl, hSilent]
      exact h.attempts.keep rfl rfl Iff.rfl (destroys_keep rfl rfl nofun (by simp [h']))
  | @cancelCall i c next response h' =>
      cases (h.cancelling.of_call h').2
      rw [show Label.endCodes (.call (.canceller i) ⟨_, response⟩) = [] from rfl, hSilent]
      exact h.attempts.keep rfl rfl Iff.rfl (destroys_keep rfl rfl nofun (by simp [h']))
  | unlockCancel h' =>
      rw [show Label.endCodes .silent = [] from rfl, hSilent]
      exact h.attempts.keep rfl rfl Iff.rfl (destroys_keep rfl rfl nofun (by simp [h']))
  | @cancelRelease i result n h' hCount =>
      rw [show Label.endCodes (.returned i _) = [] from rfl, hSilent]
      exact h.attempts.keep rfl rfl (by simp [setCanceller, hCount])
        (destroys_keep rfl rfl nofun (by simp [h']))
  | @cancelLast i result h' hCount =>
      have hAlive : s.strong ≠ 0 := by omega
      have hHolds : (s.canceller i).Holds := by
        rw [h']
        trivial
      have hRefs := h.counted.last hHolds hCount
      have hUnlocked : ∀ rest, s.owner ≠ .ending rest := by
        intro rest hOwner
        simp [hOwner, OwnerPhase.refs] at hRefs
      rw [show Label.endCodes .silent = [] from rfl, hSilent]
      refine @Attempts.release _ s _ codes (.canceller i) (h.attempts.alive hAlive hUnlocked).2
        (fun b rest => hUnreleased hAlive rest b) rfl rfl ?_ fun rest b hb => destroys_other hb rfl rfl
      exact ⟨result, setCanceller_self ..⟩
  | @cancelReleasingCall i _ _ _ result h' =>
      have ha : s.Destroys _ (.canceller i) := ⟨_, h'⟩
      exact h.attempts.destroy h.counted (h.unreferenced _ _ ha) ha rfl
        ⟨result, setCanceller_self ..⟩ fun rest b hb => destroys_other hb rfl rfl
  | @cancelReleased i _ h' =>
      have ha : s.Destroys _ (.canceller i) := ⟨_, h'⟩
      rw [show Label.endCodes (.returned i _) = [] from rfl, hSilent]
      refine h.attempts.destroyed_return h.counted (h.unreferenced _ _ ha) ha rfl ?_
        fun rest b hb => destroys_other hb rfl rfl
      simp [Destroys]

/-- Every step keeps the invariant of a shared handle. -/
theorem Public.step (h : s.Public codes) (step : Step s l t) : t.Public (codes ++ l.endCodes) where
  shared := h.shared.step step
  counted := h.counted.step h.shared step
  exclusive := h.exclusive_step step
  cancelling := Cancelling.step h step
  unreferenced := Unreferenced.step h step
  attempts := Attempts.step h step

/-- The handle is shared from the moment its session was handed out. -/
theorem Public.of_started {core : SessionCore} (hFree : s.holder = none)
    (hIdle : ∀ i, s.canceller i = .idle) (hOpen : core.handle.ended = false) :
    State.Public { s with handle := core.handle, strong := 1, owner := .holding } [] where
  shared := trivial
  counted := ⟨∅, by simp [hIdle, CancelPhase.Holds], rfl⟩
  exclusive a := by cases a <;> simp [hFree, Guards, hIdle]
  cancelling i rest h := by simp [hIdle] at h
  unreferenced a rest h := by cases a <;> simp [Destroys, hIdle] at h
  attempts := .held one_ne_zero nofun (fun _ => rfl) (hOpen ▸ .fresh)

/-- The calls of an opening stay within the three states that it can reach. -/
theorem openingContract_next {opened : Bool × List UInt32} {c : Call} (response : c.Response)
    (hCall : openingContract.guarantee opened c)
    (h : opened = (false, []) ∨ opened = (true, []) ∨ ∃ code, opened = (true, [code])) :
    openingContract.next opened c response = (false, []) ∨
      openingContract.next opened c response = (true, []) ∨
      ∃ code, openingContract.next opened c response = (true, [code]) := by
  cases c with
  | rmStartSession | rmJoinSession _ =>
      obtain rfl : opened = (false, []) := hCall
      by_cases hCode : response.code = ERROR_SUCCESS <;>
        simp [openingContract, begins, endCode?, hCode]
  | rmEndSession _ =>
      obtain rfl : opened = (true, []) := hCall
      exact .inr (.inr ⟨response, rfl⟩)
  | _ => simpa [openingContract, begins, endCode?] using h

/-- A session that is still being opened is not shared. -/
theorem Private.unshared {opened : Bool × List UInt32} (h : s.Private opened) : ¬s.Shared := by
  obtain ⟨rest, hOwner, -⟩ | ⟨hOwner, -⟩ := h.opening <;> simp [Shared, hOwner]

/-- A step of a thread other than the one that opens the session has none to
work on. -/
theorem Private.step {opened : Bool × List UInt32} (h : s.Private opened) (step : Step s l t) :
    (∃ c response, l = .call .owner ⟨c, response⟩ ∧
      t.Private (openingContract.next opened c response)) ∨
    (l = .silent ∧ (t.Private opened ∨ opened = (true, []) ∧ t.Public [])) := by
  have hUnshared := h.unshared
  cases step with
  | @startCall c next response h' =>
      obtain ⟨rest, hOwner, hRest⟩ | ⟨hOwner, -⟩ := h.opening
      · cases h'.symm.trans hOwner
        exact .inl ⟨c, response, rfl, h.free, h.idle, openingContract_next response hRest.1 h.reached,
          .inl ⟨_, rfl, hRest.2 response trivial⟩⟩
      · simp [h'] at hOwner
  | @started core h' =>
      obtain ⟨rest, hOwner, hRest⟩ | ⟨hOwner, -⟩ := h.opening
      · cases h'.symm.trans hOwner
        obtain ⟨hOpened, hOpen⟩ := hRest
        exact .inr ⟨rfl, .inr ⟨hOpened, .of_started h.free h.idle hOpen⟩⟩
      · simp [h'] at hOwner
  | @startFailed error h' =>
      obtain ⟨rest, hOwner, hRest⟩ | ⟨hOwner, -⟩ := h.opening
      · cases h'.symm.trans hOwner
        exact .inr ⟨rfl, .inl ⟨h.free, h.idle, h.reached, .inr ⟨rfl, error, hRest⟩⟩⟩
      · simp [h'] at hOwner
  | lockEnd h' | endCall h' | unlockEnd h' | ownerReleasingCall h' | ownerReleased h' =>
      simp [Shared, h'] at hUnshared
  | ownerRelease h' => rcases h' with h' | h' <;> simp [Shared, h'] at hUnshared
  | upgrade _ shared | upgradeFailed _ shared => exact absurd shared hUnshared
  | lockCancel h' | cancelCall h' | unlockCancel h' | cancelRelease h' | cancelLast h'
  | cancelReleasingCall h' | cancelReleased h' => simp [h.idle] at h'

end Steps

/-- What is known of a reachable state. -/
inductive Tracked (history : List Label) (s : State) : Prop
  | opening (h : s.Private (began history, endCodes history))
  | shared (hBegan : began history = true) (h : s.Public (endCodes history))

section Runs

variable {start : Native (Except Error SessionCore)} {history : List Label} {s t : State} {l : Label}

/-- The invariant holds before the first step. -/
theorem Tracked.init (hStart : Opening start) : (State.init start).Tracked [] :=
  .opening ⟨rfl, fun _ => rfl, .inl rfl, .inl ⟨start, rfl, hStart.wp⟩⟩

/-- Every step of every thread keeps the invariant, before the handle is shared and after. -/
theorem Tracked.step (h : s.Tracked history) (step : Step s l t) : t.Tracked (history ++ [l]) := by
  cases h with
  | opening h =>
      obtain ⟨c, response, rfl, hNext⟩ | ⟨rfl, hNext | ⟨hOpened, hNext⟩⟩ := h.step step
      · refine .opening ?_
        rw [began_snoc, endCodes_snoc]
        exact hNext
      · refine .opening ?_
        rw [began_snoc, endCodes_snoc]
        simpa [Label.event?, Label.endCodes] using hNext
      · obtain ⟨hBegan, hCodes⟩ := Prod.mk.inj hOpened
        refine .shared ?_ ?_
        · rw [began_snoc, hBegan]
          rfl
        · rw [endCodes_snoc, hCodes]
          exact hNext
  | shared hBegan h =>
      refine .shared ?_ ?_
      · rw [began_snoc, hBegan]
        rfl
      · rw [endCodes_snoc]
        exact h.step step

/-- The invariant holds in every state that a run reaches, by induction on it. -/
theorem Tracked.of_run (hStart : Opening start) (run : Run Step (State.init start) history s) :
    s.Tracked history :=
  run.invariant (.init hStart) fun _ _ _ _ h step => h.step step

end Runs

end State
end Cancellation
end RestartManager
