import RestartManager.Interaction.Program
import RestartManager.Interaction.Transition
import RestartManager.Shutdown

/-! The coalescing receiver of progress: a watch channel that keeps only its
last value, the thread that writes it, and a reader that calls `recv` again
and again. A write may fall between the two steps of one `recv`. -/
namespace RestartManager

open Interaction Transition

namespace Watch

/-- `closed` holds once the sender was dropped. -/
structure Channel (α : Type) where
  value : α
  version : Nat
  closed : Bool

def Channel.sendReplace {α : Type} (channel : Channel α) (value : α) : Channel α :=
  { channel with value, version := channel.version + 1 }

/-- The two steps that a receiver takes. -/
inductive Op
  | changed
  | borrow

/-- `changed` says whether it completed with `Ok`. -/
abbrev Op.Response (α : Type) : Op → Type
  | changed => Bool
  | borrow => α

abbrev Reader (α β : Type) := Program Op (Op.Response α) β

end Watch

namespace ProgressReceiver

open Watch

/-- Does not mark the value as received. -/
def peek : Reader (Option Progress) (Option Progress) := Program.request Op.borrow

def recv : Reader (Option Progress) (Option Progress) := do
  if ← Program.request Op.changed then peek else return none

/-- `seen` is the version that the receiver has marked. -/
structure State where
  channel : Channel (Option Progress)
  seen : Nat
  reader : Reader (Option Progress) (Option Progress)

inductive Label
  | write (value : Progress)
  | dropSender
  | changed
  | peek (result : Option Progress)
  | closed (result : Option Progress)
  deriving DecidableEq

/-- A `recv` that returns is followed by the next one. -/
inductive Step : State → Label → State → Prop
  | write {s : State} {value : Progress} (h : s.channel.closed = false) :
      Step s (.write value) { s with channel := s.channel.sendReplace (some value) }
  | dropSender {s : State} :
      Step s .dropSender { s with channel := { s.channel with closed := true } }
  | changed {s : State} {next : Bool → Reader (Option Progress) (Option Progress)}
      (h : s.reader = .call .changed next) (newer : s.channel.version ≠ s.seen) :
      Step s .changed { s with seen := s.channel.version, reader := next true }
  | closed {s : State} {next : Bool → Reader (Option Progress) (Option Progress)}
      {result : Option Progress} (h : s.reader = .call .changed next)
      (same : s.channel.version = s.seen) (closed : s.channel.closed = true)
      (returned : next false = .done result) : Step s (.closed result) { s with reader := recv }
  | peek {s : State} {next : Option Progress → Reader (Option Progress) (Option Progress)}
      {result : Option Progress} (h : s.reader = .call .borrow next)
      (returned : next s.channel.value = .done result) :
      Step s (.peek result) { s with reader := recv }

def State.init : State where
  channel := ⟨none, 0, false⟩
  seen := 0
  reader := recv

/-- What a call of `recv` returns. -/
def Label.result? : Label → Option (Option Progress)
  | .peek result | .closed result => some result
  | _ => none

/-- The channel operations of the `recv` that is under way, after one more step. -/
def Label.extend (ops : Interaction.Trace (Op.Response (Option Progress))) :
    Label → Interaction.Trace (Op.Response (Option Progress))
  | .write _ | .dropSender => ops
  | .changed => ops ++ [⟨.changed, true⟩]
  | .peek _ | .closed _ => []

/-- The channel operations since a call of `recv` last returned. -/
def underway (history : List Label) : Interaction.Trace (Op.Response (Option Progress)) :=
  history.foldl Label.extend []

/-- The values written, in order. -/
def writes (history : List Label) : List Progress :=
  history.filterMap fun
    | .write value => some value
    | _ => none

/-- The `Some` values that calls of `recv` returned, in order. -/
def received (history : List Label) : List Progress :=
  history.filterMap fun
    | .peek result | .closed result => result
    | _ => none

def NoPeek (history : List Label) : Prop := ∀ result, Label.peek result ∉ history

/-- The history ends with a peek, and with no write since the peek before it,
whose own `recv` was overtaken by a write. -/
def Stale (history : List Label) : Prop :=
  ∃ before during first between second,
    history = before ++ .changed :: (during ++ .peek first :: (between ++ [.peek second])) ∧
      NoPeek during ∧ NoPeek between ∧ (∃ value, .write value ∈ during) ∧
      ∀ value, .write value ∉ between

section

variable {history first second : List Label} {l : Label} {s t : State} {n : Nat}

@[simp] theorem writes_append : writes (first ++ second) = writes first ++ writes second :=
  List.filterMap_append

@[simp] theorem received_append : received (first ++ second) = received first ++ received second :=
  List.filterMap_append

@[simp] theorem writes_write (value : Progress) :
    writes (.write value :: history) = value :: writes history := rfl

@[simp] theorem writes_changed : writes (.changed :: history) = writes history := rfl

@[simp] theorem writes_peek (result : Option Progress) :
    writes (.peek result :: history) = writes history := rfl

@[simp] theorem received_nil : received [] = [] := rfl

@[simp] theorem received_changed : received (.changed :: history) = received history := rfl

@[simp] theorem received_peek (result : Option Progress) :
    received (.peek result :: history) = result.toList ++ received history := by
  cases result <;> rfl

theorem mem_writes {value : Progress} : value ∈ writes history ↔ .write value ∈ history := by
  simp only [writes, List.mem_filterMap]
  constructor
  · rintro ⟨l, hMem, hl⟩
    cases l <;> cases hl
    exact hMem
  · intro hMem
    exact ⟨_, hMem, rfl⟩

/-- A history without reads stays so when another one follows. -/
theorem NoPeek.append (h : NoPeek first) (h' : NoPeek second) : NoPeek (first ++ second) := by
  intro result hMem
  rcases List.mem_append.mp hMem with hMem | hMem
  · exact h result hMem
  · exact h' result hMem

theorem NoPeek.marked (h : NoPeek history) : NoPeek (.changed :: history) := by
  intro result hMem
  cases hMem with
  | tail _ hMem => exact h result hMem

/-- The last label receives what it read, if anything. -/
theorem received_snoc : received (history ++ [l]) = received history ++ l.result?.join.toList := by
  rw [received_append]
  cases l with
  | peek result | closed result => cases result <;> rfl
  | _ => rfl

/-! ### Calls of `recv` -/

/-- A step goes on with the `recv` that is under way, or returns its result. -/
theorem Step.recv_steps (h : recv.Steps (underway history) s.reader) (step : Step s l t) :
    recv.Steps (underway (history ++ [l])) t.reader ∧ ∀ result, l.result? = some result →
      ∃ op, recv.Exec (underway history ++ [op]) result ∧
        (op = ⟨.changed, false⟩ ∨ op = ⟨.borrow, s.channel.value⟩) := by
  have hSnoc : underway (history ++ [l]) = l.extend (underway history) := List.foldl_append
  rw [hSnoc]
  cases step with
  | write | dropSender => exact ⟨h, nofun⟩
  | changed hReader =>
      rw [hReader] at h
      exact ⟨h.snoc true, nofun⟩
  | closed hReader _ _ returned =>
      rw [hReader] at h
      have hReturned := h.snoc false
      rw [returned] at hReturned
      refine ⟨.refl _, ?_⟩
      rintro _ ⟨⟩
      exact ⟨_, hReturned, .inl rfl⟩
  | peek hReader returned =>
      rw [hReader] at h
      have hReturned := h.snoc s.channel.value
      rw [returned] at hReturned
      refine ⟨.refl _, ?_⟩
      rintro _ ⟨⟩
      exact ⟨_, hReturned, .inr rfl⟩

/-- By induction on the run: the reader is where the embedded `recv` stands after its last steps. -/
theorem recv_steps (run : Run Step State.init history s) : recv.Steps (underway history) s.reader := by
  induction run with
  | refl => exact .refl _
  | snoc _ step ih => exact (step.recv_steps ih).1

/-- What a label returns is the result of the embedded `recv`. -/
theorem recv_returns (run : Run Step State.init history s) (step : Step s l t)
    {result : Option Progress} (hResult : l.result? = some result) :
    ∃ op, recv.Exec (underway history ++ [op]) result ∧
      (op = ⟨.changed, false⟩ ∨ op = ⟨.borrow, s.channel.value⟩) :=
  (step.recv_steps (recv_steps run)).2 result hResult

/-! ### What one `recv` has seen -/

/-- What lies behind a reader that is about to call `recv`: no peek yet, or a
`recv` that marked the version it found. -/
inductive Past : List Label → Nat → Prop
  | first {history : List Label} (h : NoPeek history) : Past history 0
  | again {before during between : List Label} {result : Option Progress} (hDuring : NoPeek during)
      (hBetween : NoPeek between) :
      Past (before ++ .changed :: (during ++ .peek result :: between)) (writes before).length

/-- Where the reader is. -/
inductive Reading : List Label → State → Prop
  | idle {history : List Label} {s : State} (past : Past history s.seen) (reader : s.reader = recv) :
      Reading history s
  | marked {before during : List Label} {n : Nat} {s : State} (past : Past before n)
      (newer : (writes before).length ≠ n) (hDuring : NoPeek during)
      (seen : s.seen = (writes before).length) (reader : s.reader = peek) :
      Reading (before ++ .changed :: during) s

/-- A step other than a read leaves the past of the reader as it was. -/
theorem Past.snoc (h : Past history n) (hl : ∀ result, l ≠ .peek result) :
    Past (history ++ [l]) n := by
  have hLast : NoPeek [l] := fun result hMem => hl result (List.mem_singleton.mp hMem).symm
  cases h with
  | first h => exact .first (h.append hLast)
  | @again before during between result hDuring hBetween =>
      have hAgain := @Past.again before _ _ result hDuring (hBetween.append hLast)
      simpa using hAgain

/-- The channel holds the last value written, and counts the writes. -/
structure Tracks (history : List Label) (s : State) : Prop where
  value : s.channel.value = (writes history).getLast?
  version : s.channel.version = (writes history).length
  reading : Reading history s

/-- Nothing was written or received at the start. -/
theorem Tracks.init : Tracks [] State.init :=
  ⟨rfl, rfl, .idle (.first nofun) rfl⟩

/-- A peek returns the last value written. -/
theorem Tracks.peek_result {result : Option Progress} (h : Tracks history s)
    (step : Step s (.peek result) t) : result = (writes history).getLast? := by
  rw [← h.value]
  cases step with
  | peek hReader returned =>
      cases h.reading with
      | idle _ reader => cases hReader.symm.trans reader
      | marked _ _ _ _ reader =>
          cases hReader.symm.trans reader
          exact (Program.done.inj returned).symm

/-- A closed channel with nothing unseen returns `none`. -/
theorem Tracks.closed_result {result : Option Progress} (h : Tracks history s)
    (step : Step s (.closed result) t) : result = none := by
  cases step with
  | closed hReader _ _ returned =>
      cases h.reading with
      | idle _ reader =>
          cases hReader.symm.trans reader
          exact (Program.done.inj returned).symm
      | marked _ _ _ _ reader => cases hReader.symm.trans reader

/-- A step that does not read keeps what the reader has seen. -/
theorem Reading.snoc (h : Reading history s) (hl : ∀ result, l ≠ .peek result)
    (hSeen : t.seen = s.seen) (hReader : t.reader = s.reader) : Reading (history ++ [l]) t := by
  have hLast : NoPeek [l] := fun result hMem => hl result (List.mem_singleton.mp hMem).symm
  cases h with
  | idle past reader => exact .idle (hSeen ▸ past.snoc hl) (hReader.trans reader)
  | marked past newer hDuring seen reader =>
      rw [List.append_assoc]
      exact .marked past newer (hDuring.append hLast) (hSeen.trans seen) (hReader.trans reader)

/-- Every step keeps the invariant: the reader has seen a prefix of the versions. -/
theorem Tracks.step (h : Tracks history s) (step : Step s l t) : Tracks (history ++ [l]) t := by
  cases step with
  | write _ =>
      refine ⟨by simp [Channel.sendReplace, writes], ?_, h.reading.snoc nofun rfl rfl⟩
      simp [Channel.sendReplace, h.version, writes]
  | dropSender =>
      exact ⟨by simpa [writes] using h.value, by simpa [writes] using h.version,
        h.reading.snoc nofun rfl rfl⟩
  | changed hReader newer =>
      refine ⟨by simpa [writes] using h.value, by simpa [writes] using h.version, ?_⟩
      cases h.reading with
      | idle past reader =>
          cases hReader.symm.trans reader
          exact .marked past (h.version ▸ newer) nofun h.version rfl
      | marked _ _ _ _ reader => cases hReader.symm.trans reader
  | closed hReader =>
      refine ⟨by simpa [writes] using h.value, by simpa [writes] using h.version, ?_⟩
      cases h.reading with
      | idle past reader => exact .idle (past.snoc nofun) rfl
      | marked _ _ _ _ reader => cases hReader.symm.trans reader
  | peek hReader =>
      refine ⟨by simpa [writes] using h.value, by simpa [writes] using h.version, ?_⟩
      cases h.reading with
      | idle _ reader => cases hReader.symm.trans reader
      | marked past newer hDuring seen reader =>
          refine .idle ?_ rfl
          rw [List.append_assoc, seen]
          exact .again hDuring nofun

/-- By induction on the run. -/
theorem Tracks.of_run (run : Run Step State.init history s) : Tracks history s :=
  run.invariant .init fun _ _ _ _ h step => h.step step

/-! ### Increasing values -/

/-- Without a read nothing is received. -/
theorem received_eq_nil (h : NoPeek history) (hClosed : ∀ result, .closed result ∈ history → result = none) :
    received history = [] := by
  rw [received, List.filterMap_eq_nil_iff]
  intro l hMem
  cases l with
  | peek result => exact absurd hMem (h result)
  | closed result => exact hClosed result hMem
  | _ => rfl

/-- Every closed return of a run is `none`. -/
theorem closed_eq_none (run : Run Step State.init history s) {result : Option Progress}
    (hMem : .closed result ∈ history) : result = none := by
  obtain ⟨first, second, rfl⟩ := List.append_of_mem hMem
  obtain ⟨t, t', before, step, -⟩ := run.split
  exact (Tracks.of_run before).closed_result step

/-- What was returned had been written before. -/
theorem received_subset (run : Run Step State.init history s) :
    ∀ value ∈ received history, value ∈ writes history := by
  induction run with
  | refl => nofun
  | @snoc history t u l run step ih =>
      intro value hMem
      rw [received_append, List.mem_append] at hMem
      rw [writes_append, List.mem_append]
      rcases hMem with hMem | hMem
      · exact .inl (ih value hMem)
      · cases l with
        | peek result =>
            have hResult := (Tracks.of_run run).peek_result step
            rw [received_peek, hResult] at hMem
            rw [received_nil, List.append_nil, Option.mem_toList] at hMem
            exact .inl (List.mem_of_getLast? hMem)
        | closed result =>
            rw [(Tracks.of_run run).closed_result step] at hMem
            cases hMem
        | _ => cases hMem

/-- A stale peek returns the value that the peek before it returned. -/
theorem Stale.repeats {result : Option Progress} (run : Run Step State.init history s)
    (step : Step s (.peek result) t) (h : Stale (history ++ [.peek result])) :
    ∃ value ∈ received history, result = some value := by
  obtain ⟨before, during, first, between, last, hHistory, -, -, ⟨written, hWrite⟩, hQuiet⟩ := h
  have hSplit : before ++ .changed :: (during ++ .peek first :: (between ++ [.peek last])) =
      ((before ++ .changed :: during) ++ .peek first :: between) ++ [.peek last] := by simp
  rw [hSplit] at hHistory
  obtain ⟨rfl, -⟩ := List.append_inj' hHistory rfl
  obtain ⟨u, u', runFirst, stepFirst, -⟩ := run.split
  have hFirst := (Tracks.of_run runFirst).peek_result stepFirst
  have hBetween : writes between = [] := by
    rw [List.eq_nil_iff_forall_not_mem]
    exact fun value hMem => hQuiet value (mem_writes.mp hMem)
  have hLast : result = first := by
    rw [(Tracks.of_run run).peek_result step, hFirst]
    simp [hBetween]
  have hWritten : writes (before ++ .changed :: during) ≠ [] := by
    intro hNil
    have hMem : written ∈ writes (before ++ .changed :: during) := by
      simp [mem_writes.mpr hWrite]
    simp [hNil] at hMem
  rw [List.getLast?_eq_some_getLast hWritten] at hFirst
  subst hFirst
  exact ⟨_, by simp, hLast⟩

/-- A peek that is not stale returns something newer than all before it. -/
theorem newer_of_not_stale {result : Option Progress} (run : Run Step State.init history s)
    (step : Step s (.peek result) t) (hWrites : (writes history).Pairwise (· < ·))
    (h : ¬Stale (history ++ [.peek result])) :
    ∀ old ∈ received history, ∀ value ∈ result, old < value := by
  have hTracks := Tracks.of_run run
  have hResult := hTracks.peek_result step
  cases hTracks.reading with
  | idle _ reader =>
      cases step with
      | peek hReader => cases hReader.symm.trans reader
  | @marked before during n _ past newer hDuring seen reader =>
      cases past with
      | first hBefore =>
          have hNone := hBefore.append hDuring.marked
          rw [received_eq_nil hNone fun result hMem => closed_eq_none run hMem]
          nofun
      | @again before' during' between result' hDuring' hBetween =>
          intro old hOld value hValue
          -- a write since the peek before, or the race that makes this one stale
          have hSince : writes (between ++ .changed :: during) ≠ [] := by
            intro hNil
            rw [writes_append, List.append_eq_nil_iff, writes_changed] at hNil
            obtain ⟨hNilBetween, hNilDuring⟩ := hNil
            have hRace : writes during' ≠ [] := by
              intro hNil
              simp [hNil, hNilBetween] at newer
            obtain ⟨written, hWritten⟩ := List.exists_mem_of_ne_nil _ hRace
            apply h
            refine ⟨before', during', result', between ++ .changed :: during, result, by simp,
              hDuring', hBetween.append hDuring.marked, ⟨written, mem_writes.mp hWritten⟩, ?_⟩
            intro value hMem
            have hMem := mem_writes.mpr hMem
            simp [hNilBetween, hNilDuring] at hMem
          have hSplit : before' ++ .changed :: (during' ++ .peek result' :: between) ++
              .changed :: during = (before' ++ .changed :: during') ++ .peek result' ::
                (between ++ .changed :: during) := by simp
          rw [hSplit] at run hOld hWrites hResult
          obtain ⟨u, u', runPeek, stepPeek, -⟩ := run.split
          have hLater : received (between ++ .changed :: during) = [] :=
            received_eq_nil (hBetween.append hDuring.marked) fun result hMem =>
              closed_eq_none run (by simp [hMem])
          have hOldWritten : old ∈ writes ((before' ++ .changed :: during') ++ [.peek result']) := by
            apply received_subset (runPeek.snoc stepPeek)
            simpa [hLater] using hOld
          have hNew : value ∈ writes (between ++ .changed :: during) := by
            rw [writes_append, writes_peek, List.getLast?_append,
              List.getLast?_eq_some_getLast hSince, Option.some_or] at hResult
            rw [hResult] at hValue
            cases hValue
            exact List.getLast_mem hSince
          rw [writes_append, writes_peek, List.pairwise_append] at hWrites
          refine hWrites.2.2 old ?_ value hNew
          simpa [writes] using hOldWritten

/-- The values that successive calls of `recv` return are increasing exactly
when no `recv` is overtaken by a write and followed by a `recv` that finds no
later one. -/
theorem recv_increasing_iff (run : Run Step State.init history s)
    (hWrites : (writes history).Pairwise (· < ·)) :
    (received history).Pairwise (· < ·) ↔ ∀ earlier, earlier <+: history → ¬Stale earlier := by
  induction run with
  | refl =>
      refine iff_of_true .nil fun earlier hPrefix hStale => ?_
      obtain ⟨before, during, first, between, second, rfl, -⟩ := hStale
      simp at hPrefix
  | @snoc history t u l run step ih =>
      rw [writes_append, List.pairwise_append] at hWrites
      have ih := ih hWrites.1
      have hPrefixes : (∀ earlier, earlier <+: history ++ [l] → ¬Stale earlier) ↔
          (∀ earlier, earlier <+: history → ¬Stale earlier) ∧ ¬Stale (history ++ [l]) := by
        simp only [List.prefix_concat_iff]
        constructor
        · exact fun h => ⟨fun earlier hPrefix => h earlier (.inr hPrefix), h _ (.inl rfl)⟩
        · rintro ⟨h, hLast⟩ earlier (rfl | hPrefix)
          · exact hLast
          · exact h earlier hPrefix
      rw [hPrefixes, ← ih, received_append]
      by_cases hPeek : ∃ result, l = .peek result
      · obtain ⟨result, rfl⟩ := hPeek
        rw [List.pairwise_append]
        constructor
        · rintro ⟨hOld, -, hNew⟩
          refine ⟨hOld, fun hStale => ?_⟩
          obtain ⟨value, hMem, rfl⟩ := hStale.repeats run step
          exact UInt8.lt_irrefl _ (hNew value hMem value (by simp))
        · rintro ⟨hOld, hFresh⟩
          have hNew := newer_of_not_stale run step hWrites.1 hFresh
          refine ⟨hOld, ?_, fun old hMem value hValue => hNew old hMem value ?_⟩
          · cases result <;> simp
          · simpa using hValue
      · have hNone : received [l] = [] := by
          cases l with
          | peek result => exact absurd ⟨result, rfl⟩ hPeek
          | closed result =>
              rw [(Tracks.of_run run).closed_result step]
              rfl
          | _ => rfl
        have hFresh : ¬Stale (history ++ [l]) := by
          rintro ⟨before, during, first, between, second, hHistory, -⟩
          have hSplit : before ++ .changed :: (during ++ .peek first :: (between ++ [.peek second])) =
              (before ++ .changed :: (during ++ .peek first :: between)) ++ [.peek second] := by simp
          rw [hSplit] at hHistory
          obtain ⟨-, hLast⟩ := List.append_inj' hHistory rfl
          exact hPeek ⟨second, (List.cons.inj hLast).1⟩
        rw [hNone, List.append_nil, and_iff_left hFresh]

end

/-- A write of 60 between the two steps of the first `recv`. -/
def overtaken : List Label :=
  [.write ⟨30, by decide⟩, .changed, .write ⟨60, by decide⟩, .peek (some ⟨60, by decide⟩), .changed,
    .peek (some ⟨60, by decide⟩)]

theorem overtaken_run : ∃ s, Run Step State.init overtaken s := by
  apply Exists.intro
  apply Run.cons (.write rfl)
  apply Run.cons (.changed rfl (by decide))
  apply Run.cons (.write rfl)
  apply Run.cons (.peek rfl rfl)
  apply Run.cons (.changed rfl (by decide))
  apply Run.cons (.peek rfl rfl)
  exact .refl

/-- The second `recv` returns 60 again. -/
theorem recv_repeats : ∃ history s, Run Step State.init history s ∧
    (writes history).Pairwise (· < ·) ∧ ¬(received history).Pairwise (· < ·) := by
  obtain ⟨s, run⟩ := overtaken_run
  exact ⟨overtaken, s, run, by decide, by decide⟩

theorem recv_increasing_iff_overtaken :
    (received overtaken).Pairwise (· < ·) ↔ ∀ earlier, earlier <+: overtaken → ¬Stale earlier := by
  obtain ⟨s, run⟩ := overtaken_run
  exact recv_increasing_iff run (by decide)
end ProgressReceiver
end RestartManager
