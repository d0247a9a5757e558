import RestartManager.Sys.FilterBuffer

/-! What a well-formed filter buffer is, and the parser as its exact decision
procedure. The chain is stated about the contents of the buffer alone; it
mentions neither the order of the parser's tests nor its loops. -/
namespace RestartManager

open Platform Interaction

section

variable [Platform]

/-! ### Well-formed buffers -/

/-- The units from `cursor` on are the given ones, none of them NUL, and a NUL
unit follows. All of them lie below `stop`. -/
def HoldsString (buffer : AlignedBuffer) (stop : Nat) : Nat → List UInt16 → Prop
  | cursor, [] => cursor + 2 ≤ stop ∧ buffer.unitAt cursor = 0
  | cursor, unit :: rest =>
      cursor + 2 ≤ stop ∧ buffer.unitAt cursor = unit ∧ unit ≠ 0 ∧
        HoldsString buffer stop (cursor + 2) rest

/-- An aligned pointer into the first `byteLen` bytes, to a string that ends
inside them. -/
structure StringAt (buffer : AlignedBuffer) (byteLen pointer : Nat) (units : List UInt16) :
    Prop where
  aligned : pointer % 2 = 0
  base_le : buffer.base ≤ pointer
  lt_end : pointer < buffer.base + byteLen
  holds : HoldsString buffer (buffer.base + byteLen) pointer units

/-- The trigger of a record selects this target. -/
def TargetAt (buffer : AlignedBuffer) (byteLen : Nat) (record : RmFilterInfo) :
    RawFilterTarget → Prop
  | .executable path =>
      record.filterTrigger = RM_FILTER_TRIGGER_FILE ∧
        StringAt buffer byteLen record.anonymous.strFilename path.units
  | .process value =>
      record.filterTrigger = RM_FILTER_TRIGGER_PROCESS ∧
        rawUniqueProcess record.anonymous.process = value
  | .service name =>
      record.filterTrigger = RM_FILTER_TRIGGER_SERVICE ∧
        StringAt buffer byteLen record.anonymous.strServiceShortName name.units

/-- A record at `offset` lies wholly inside the first `byteLen` bytes and
describes this filter. -/
structure RecordAt (buffer : AlignedBuffer) (byteLen offset : Nat) (filter : RawFilter) :
    Prop where
  inside : offset + recordSize ≤ byteLen
  target : TargetAt buffer byteLen (buffer.recordAt offset) filter.target
  action : (buffer.recordAt offset).filterAction = filter.action

/-- The records from `offset` on, linked by their next offsets. -/
inductive FilterChain (buffer : AlignedBuffer) (byteLen : Nat) : Nat → List RawFilter → Prop
  | last {offset : Nat} {filter : RawFilter} (record : RecordAt buffer byteLen offset filter)
      (end_of_chain : (buffer.recordAt offset).cbNextOffset = 0) :
      FilterChain buffer byteLen offset [filter]
  | link {offset : Nat} {filter : RawFilter} {rest : List RawFilter}
      (record : RecordAt buffer byteLen offset filter)
      (linked : (buffer.recordAt offset).cbNextOffset ≠ 0)
      (advances : recordSize ≤ (buffer.recordAt offset).cbNextOffset.toNat)
      (tail : FilterChain buffer byteLen
        (offset + (buffer.recordAt offset).cbNextOffset.toNat) rest) :
      FilterChain buffer byteLen offset (filter :: rest)

/-- The first `byteLen` bytes of the buffer hold exactly these filters. -/
def HoldsFilters (buffer : AlignedBuffer) (byteLen : Nat) (filters : List RawFilter) : Prop :=
  (byteLen = 0 ∧ filters = []) ∨ (byteLen ≠ 0 ∧ FilterChain buffer byteLen 0 filters)

/-! ### A buffer holds at most one list -/

/-- A buffer holds at most one string at a place. -/
theorem HoldsString.unique {buffer : AlignedBuffer} {stop cursor : Nat} {first second : List UInt16}
    (h₁ : HoldsString buffer stop cursor first) (h₂ : HoldsString buffer stop cursor second) :
    first = second := by
  induction first generalizing cursor second with
  | nil =>
      cases second with
      | nil => rfl
      | cons unit rest => exact absurd (h₂.2.1.symm.trans h₁.2) h₂.2.2.1
  | cons unit rest ih =>
      cases second with
      | nil => exact absurd (h₁.2.1.symm.trans h₂.2) h₁.2.2.1
      | cons unit' rest' =>
          rw [← h₁.2.1, ← h₂.2.1, ih h₁.2.2.2 h₂.2.2.2]

/-- A record names at most one target. -/
theorem TargetAt.unique {buffer : AlignedBuffer} {byteLen : Nat} {record : RmFilterInfo}
    {first second : RawFilterTarget} (h₁ : TargetAt buffer byteLen record first)
    (h₂ : TargetAt buffer byteLen record second) : first = second := by
  have strings {a b : OsString} {pointer : Nat} (ha : StringAt buffer byteLen pointer a.units)
      (hb : StringAt buffer byteLen pointer b.units) : a = b := by
    cases a
    cases b
    exact congrArg OsString.mk (ha.holds.unique hb.holds)
  cases first <;> cases second <;> simp only [TargetAt] at h₁ h₂
  all_goals first
    | exact absurd (h₁.1.symm.trans h₂.1) (by decide)
    | exact congrArg _ (strings h₁.2 h₂.2)
    | exact congrArg _ (h₁.2.symm.trans h₂.2)

/-- A place holds at most one record. -/
theorem RecordAt.unique {buffer : AlignedBuffer} {byteLen offset : Nat} {first second : RawFilter}
    (h₁ : RecordAt buffer byteLen offset first) (h₂ : RecordAt buffer byteLen offset second) :
    first = second := by
  cases first
  cases second
  exact congrArg₂ _ (h₁.target.unique h₂.target) (h₁.action.symm.trans h₂.action)

/-- A chain that starts at a place is the only one: by induction on its links. -/
theorem FilterChain.unique {buffer : AlignedBuffer} {byteLen offset : Nat}
    {first second : List RawFilter} (h₁ : FilterChain buffer byteLen offset first)
    (h₂ : FilterChain buffer byteLen offset second) : first = second := by
  induction h₁ generalizing second with
  | last record hLast =>
      cases h₂ with
      | last record' _ => rw [record.unique record']
      | link _ hLinked => exact absurd hLast hLinked
  | link record hLinked _ _ ih =>
      cases h₂ with
      | last _ hLast => exact absurd hLast hLinked
      | link record' _ _ tail' => rw [record.unique record', ih tail']

/-- A buffer holds at most one list. -/
theorem HoldsFilters.unique {buffer : AlignedBuffer} {byteLen : Nat} {first second : List RawFilter}
    (h₁ : HoldsFilters buffer byteLen first) (h₂ : HoldsFilters buffer byteLen second) :
    first = second := by
  rcases h₁ with ⟨hZero, rfl⟩ | ⟨hLen, chain₁⟩
  · rcases h₂ with ⟨_, rfl⟩ | ⟨hLen, _⟩
    · rfl
    · exact absurd hZero hLen
  · rcases h₂ with ⟨hZero, _⟩ | ⟨_, chain₂⟩
    · exact absurd hZero hLen
    · exact chain₁.unique chain₂

/-! ### The parser decides them -/

/-- Inside a parse, only the first `byteLen` bytes are read, and room is asked
for units of strings. A reservation fails only when `mayFail` holds. -/
def bufferContract (buffer : AlignedBuffer) (byteLen : Nat) (mayFail : Prop) :
    Contract Call.Response Unit where
  guarantee _ c := match c with
    | .readUnaligned address length =>
        buffer.base ≤ address ∧ address + length ≤ buffer.base + byteLen
    | .tryReserveExact _ size => size = 2
    | _ => False
  rely _ c := match c with
    | .tryReserveExact .. => fun response => response = none → mayFail
    | _ => fun _ => True
  next _ _ _ := ()

/-- A result that settles `P`: a value that has it, or the malformed-output
error when no value has it. A failed reservation settles nothing. -/
inductive Decides {α : Type} (mayFail : Prop) (P : α → Prop) : SysResult α → Prop
  | holds {a : α} (h : P a) : Decides mayFail P (.ok a)
  | malformed {detail : String} (h : ∀ a, ¬P a) :
      Decides mayFail P (.error (.malformedOutput detail))
  | allocation (h : mayFail) : Decides mayFail P (.error .allocationFailure)

section Parser

variable {buffer : AlignedBuffer} {byteLen : Nat} {mayFail : Prop}

/-- Sequencing: the second part starts from what the first part settled. -/
theorem wp_decides_bind {α β : Type} {p : SysM α} {f : α → SysM β} {P : α → Prop} {R : β → Prop}
    (hp : (bufferContract buffer byteLen mayFail).wp p.run (fun r _ => Decides mayFail P r) ())
    (hf : ∀ a, P a →
      (bufferContract buffer byteLen mayFail).wp (f a).run (fun r _ => Decides mayFail R r) ())
    (hR : ∀ b, R b → ∃ a, P a) :
    (bufferContract buffer byteLen mayFail).wp (p >>= f).run (fun r _ => Decides mayFail R r) () := by
  rw [Contract.wp_run_bind]
  refine Contract.wp_mono _ hp ?_
  rintro _ _ (h | hNone | hFail)
  · exact hf _ h
  · refine .malformed fun b hb => ?_
    obtain ⟨a, ha⟩ := hR b hb
    exact hNone a ha
  · exact .allocation hFail

/-- A string ends with its terminator inside the buffer. -/
theorem HoldsString.bound {stop cursor : Nat} {units : List UInt16}
    (h : HoldsString buffer stop cursor units) : cursor + 2 ≤ stop := by
  cases units with
  | nil => exact h.1
  | cons unit rest => exact h.1

/-- From any cursor, the inner loop finds the string that starts there. -/
theorem wp_readUnits {stop cursor : Nat} (hStop : stop = buffer.base + byteLen)
    (hMax : stop ≤ usizeMax) (hBase : buffer.base ≤ cursor) (units : List UInt16) :
    (bufferContract buffer byteLen mayFail).wp (readUnits buffer stop cursor units).run
      (fun result _ => Decides mayFail
        (fun all => ∃ rest, HoldsString buffer stop cursor rest ∧ all = units ++ rest) result) () := by
  induction cursor, units using readUnits.induct buffer stop with
  | case1 cursor units hAdd =>
      rw [readUnits_overflow hAdd]
      refine .malformed fun all ⟨rest, hRest, _⟩ => ?_
      have := hRest.bound
      simp only [checkedAdd, ite_eq_right_iff] at hAdd
      exact absurd (hAdd (by omega)) (by simp)
  | case2 cursor units unitEnd hAdd hEnd =>
      rw [readUnits_outside hAdd hEnd]
      refine .malformed fun all ⟨rest, hRest, _⟩ => ?_
      have := hRest.bound
      have := checkedAdd_eq_some.mp hAdd
      omega
  | case3 cursor units unitEnd hAdd hEnd ih =>
      rw [readUnits_inside hAdd hEnd]
      obtain ⟨-, rfl⟩ := checkedAdd_eq_some.mp hAdd
      rw [Contract.wp_run_bind, wp_sysCall]
      refine ⟨⟨hBase, by omega⟩, fun _ _ => ?_⟩
      dsimp only
      split
      · rename_i hNul
        exact .holds ⟨[], ⟨by omega, hNul⟩, by simp⟩
      · rename_i hUnit
        refine Contract.wp_mono _ (ih (by omega)) ?_
        rintro _ _ (⟨rest, hRest, rfl⟩ | hNone | hFail)
        · exact .holds ⟨buffer.unitAt cursor :: rest, ⟨by omega, rfl, hUnit, hRest⟩, by simp⟩
        · refine .malformed fun all ⟨rest, hRest, hAll⟩ => ?_
          cases rest with
          | nil => exact hUnit hRest.2
          | cons unit rest => exact hNone _ ⟨rest, hRest.2.2.2, by simpa [hRest.2.1] using hAll⟩
        · exact .allocation hFail

/-- The read decides whether there is a string, and returns it. -/
theorem wp_readBufferString {stop : Nat} (hStop : stop = buffer.base + byteLen)
    (hMax : stop ≤ usizeMax) (pointer : Nat) :
    (bufferContract buffer byteLen mayFail).wp (readBufferString buffer pointer buffer.base stop).run
      (fun result _ => Decides mayFail
        (fun value : OsString => StringAt buffer byteLen pointer value.units) result) () := by
  subst hStop
  unfold readBufferString
  dsimp only
  split_ifs with hRange hAligned
  · refine .malformed fun value h => ?_
    have := buffer.base_ne_zero
    have := h.base_le
    have := h.lt_end
    omega
  · exact .malformed fun value h => hAligned h.aligned
  · rw [Contract.wp_run_bind, wp_sysCall]
    refine ⟨rfl, fun response hResponse => ?_⟩
    cases response with
    | none => exact .allocation (hResponse rfl)
    | some allocation =>
        refine wp_decides_bind (wp_readUnits rfl hMax (by omega) []) ?_ ?_
        · rintro units ⟨rest, hRest, rfl⟩
          exact .holds ⟨by omega, by omega, by omega, hRest⟩
        · intro value h
          exact ⟨_, value.units, h.holds, rfl⟩

/-- The read decides whether there is a target. -/
theorem wp_readTarget {stop : Nat} (hStop : stop = buffer.base + byteLen) (hMax : stop ≤ usizeMax)
    (record : RmFilterInfo) :
    (bufferContract buffer byteLen mayFail).wp (readTarget buffer record buffer.base stop).run
      (fun result _ => Decides mayFail (TargetAt buffer byteLen record) result) () := by
  unfold readTarget
  split_ifs with hFile hProcess hService
  · refine wp_decides_bind (wp_readBufferString hStop hMax _) ?_ ?_
    · intro path h
      exact .holds ⟨hFile, h⟩
    · rintro (path | value | name) h
      · exact ⟨path, h.2⟩
      · exact absurd (hFile.symm.trans h.1) (by decide)
      · exact absurd (hFile.symm.trans h.1) (by decide)
  · exact .holds ⟨hProcess, rfl⟩
  · refine wp_decides_bind (wp_readBufferString hStop hMax _) ?_ ?_
    · intro name h
      exact .holds ⟨hService, h⟩
    · rintro (path | value | name) h
      · exact absurd h.1 hFile
      · exact absurd h.1 hProcess
      · exact ⟨name, h.2⟩
  · refine .malformed ?_
    rintro (path | value | name) h
    · exact hFile h.1
    · exact hProcess h.1
    · exact hService h.1

/-- Every record of a chain fits in the buffer. -/
theorem FilterChain.bound {offset : Nat} {filters : List RawFilter}
    (h : FilterChain buffer byteLen offset filters) : offset + recordSize ≤ byteLen := by
  cases h with
  | last record _ => exact record.inside
  | link record _ _ _ => exact record.inside

/-- What follows a record that links on is a chain of its own. -/
theorem FilterChain.link_inv {offset : Nat} {all : List RawFilter}
    (h : FilterChain buffer byteLen offset all)
    (hLinked : (buffer.recordAt offset).cbNextOffset ≠ 0) :
    recordSize ≤ (buffer.recordAt offset).cbNextOffset.toNat ∧ ∃ filter rest,
      all = filter :: rest ∧ RecordAt buffer byteLen offset filter ∧
        FilterChain buffer byteLen (offset + (buffer.recordAt offset).cbNextOffset.toNat) rest := by
  cases h with
  | last _ hLast => exact absurd hLast hLinked
  | link record _ advances tail => exact ⟨advances, _, _, rfl, record, tail⟩

/-- From any offset, the outer loop finds the chain that starts there. -/
theorem wp_parseRecords {stop : Nat} (hStop : stop = buffer.base + byteLen)
    (hMax : stop ≤ usizeMax) (offset : Nat) (filters : List RawFilter) :
    (bufferContract buffer byteLen mayFail).wp
      (parseRecords buffer byteLen buffer.base stop offset filters).run
      (fun result _ => Decides mayFail
        (fun all => ∃ rest, FilterChain buffer byteLen offset rest ∧ all = filters ++ rest)
        result) () := by
  induction offset, filters using parseRecords.induct buffer byteLen with
  | case1 offset filters hAdd =>
      rw [parseRecords_overflow hAdd]
      refine .malformed fun all ⟨rest, hRest, _⟩ => ?_
      have := hRest.bound
      simp only [checkedAdd, ite_eq_right_iff] at hAdd
      exact absurd (hAdd (by omega)) (by simp)
  | case2 offset filters recordEnd hAdd hEnd =>
      rw [parseRecords_outside hAdd hEnd]
      refine .malformed fun all ⟨rest, hRest, _⟩ => ?_
      have := hRest.bound
      have := checkedAdd_eq_some.mp hAdd
      omega
  | case3 offset filters recordEnd hAdd hEnd ih =>
      rw [parseRecords_inside hAdd hEnd]
      obtain ⟨-, rfl⟩ := checkedAdd_eq_some.mp hAdd
      rw [Contract.wp_run_bind, wp_sysCall]
      refine ⟨⟨by omega, by omega⟩, fun _ _ => ?_⟩
      refine wp_decides_bind (wp_readTarget hStop hMax _) ?_ ?_
      · intro target hTarget
        have record : RecordAt buffer byteLen offset
            ⟨target, (buffer.recordAt offset).filterAction⟩ := ⟨by omega, hTarget, rfl⟩
        split
        · rename_i hLast
          exact .holds ⟨_, .last record hLast, rfl⟩
        · rename_i hLinked
          rw [usizeTryFrom_eq, pure_bind]
          split
          · rename_i hNext
            refine .malformed fun all ⟨rest, hRest, _⟩ => ?_
            have := (hRest.link_inv hLinked).1
            omega
          · rename_i hNext
            split
            · rename_i hOffset
              refine .malformed fun all ⟨rest, hRest, _⟩ => ?_
              obtain ⟨-, filter, tail, -, -, hTail⟩ := hRest.link_inv hLinked
              have := hTail.bound
              simp only [checkedAdd, ite_eq_right_iff] at hOffset
              exact absurd (hOffset (by omega)) (by simp)
            · rename_i offset' hOffset
              refine Contract.wp_mono _ (ih target _ hNext offset' hOffset) ?_
              obtain ⟨-, rfl⟩ := checkedAdd_eq_some.mp hOffset
              rintro _ _ (⟨rest, hRest, rfl⟩ | hNone | hFail)
              · exact .holds ⟨_, .link record hLinked (by omega) hRest, by simp⟩
              · refine .malformed fun all ⟨rest, hRest, hAll⟩ => ?_
                obtain ⟨-, filter, tail, rfl, record', hTail⟩ := hRest.link_inv hLinked
                exact hNone all ⟨tail, hTail, by rw [hAll, ← record.unique record']; simp⟩
              · exact .allocation hFail
      · rintro all ⟨rest, hRest, -⟩
        cases hRest with
        | last record _ => exact ⟨_, record.target⟩
        | link record _ _ _ => exact ⟨_, record.target⟩

end Parser

/-- Every reservation that the run made was granted. -/
def ReservationsSucceed (trace : Trace) : Prop :=
  ∀ count size, (⟨.tryReserveExact count size, none⟩ : Event) ∉ trace

/-- A trace whose reservations fail only where they may. -/
theorem bufferContract_conforms {buffer : AlignedBuffer} {byteLen : Nat} {mayFail : Prop} {trace : Trace}
    (h : ∀ count size, ⟨.tryReserveExact count size, none⟩ ∈ trace → mayFail) :
    (bufferContract buffer byteLen mayFail).Conforms () trace := by
  induction trace with
  | nil => trivial
  | cons event trace ih =>
      refine ⟨?_, ih fun count size hMem => h count size (List.mem_cons_of_mem _ hMem)⟩
      obtain ⟨c, response⟩ := event
      cases c <;> first | trivial | skip
      rename_i count size
      rintro rfl
      exact h count size List.mem_cons_self

/-- Where every reservation may fail, nothing is asked of the environment. -/
theorem bufferContract_rely {buffer : AlignedBuffer} {byteLen : Nat} (s : Unit) (c : Call) (r : c.Response) :
    (bufferContract buffer byteLen True).rely s c r := by
  cases c <;> first | exact fun _ => trivial | trivial

/-- The parser settles every length that fits the buffer: it returns the
filters that the buffer holds, or the malformed-output error. -/
theorem wp_parseFilterBuffer {buffer : AlignedBuffer} {byteLen : Nat} {mayFail : Prop}
    (hLen : byteLen ≤ buffer.byteCapacity) :
    (bufferContract buffer byteLen mayFail).wp (parseFilterBuffer buffer byteLen).run
      (fun result _ => Decides mayFail (HoldsFilters buffer byteLen) result) () := by
  have hBound := buffer.base_add_le
  unfold AlignedBuffer.byteCapacity at hLen
  unfold parseFilterBuffer
  split_ifs with hZero hCapacity hRecord
  · exact .holds (.inl ⟨hZero, rfl⟩)
  · exact absurd hLen (by simpa [AlignedBuffer.byteCapacity] using hCapacity)
  · refine .malformed ?_
    rintro filters (⟨hLen, -⟩ | ⟨-, chain⟩)
    · exact hZero hLen
    · have := chain.bound
      omega
  · dsimp only
    rw [show checkedAdd buffer.base byteLen = some (buffer.base + byteLen) from
      checkedAdd_eq_some.mpr ⟨by omega, rfl⟩]
    refine Contract.wp_mono _ (wp_parseRecords rfl (by omega) 0 []) ?_
    rintro _ _ (⟨rest, hRest, rfl⟩ | hNone | hFail)
    · exact .holds (.inr ⟨hZero, hRest⟩)
    · refine .malformed ?_
      rintro filters (⟨hLen, -⟩ | ⟨-, chain⟩)
      · exact hZero hLen
      · exact hNone _ ⟨filters, chain, rfl⟩
    · exact .allocation hFail

/-- The parser accepts exactly the well-formed buffers, with exactly the
filters they hold; every other buffer is malformed output. -/
theorem parseFilterBuffer_exact {buffer : AlignedBuffer} {byteLen : Nat} {trace : Trace}
    {result : SysResult (List RawFilter)} (hLen : byteLen ≤ buffer.byteCapacity)
    (run : (parseFilterBuffer buffer byteLen).run.Exec trace result)
    (hAlloc : ReservationsSucceed trace) :
    (∀ filters, result = .ok filters ↔ HoldsFilters buffer byteLen filters) ∧
      ((¬∃ filters, HoldsFilters buffer byteLen filters) →
        ∃ detail, result = .error (.malformedOutput detail)) := by
  obtain ⟨-, hResult⟩ := Contract.wp_exec _ run (wp_parseFilterBuffer hLen)
    (bufferContract_conforms hAlloc)
  cases hResult with
  | holds h =>
      refine ⟨fun filters => ⟨?_, fun h' => congrArg _ (h.unique h')⟩, fun hNone => ?_⟩
      · rintro ⟨⟩
        exact h
      · exact absurd ⟨_, h⟩ hNone
  | malformed hNone =>
      exact ⟨fun filters => ⟨nofun, fun h => absurd h (hNone filters)⟩, fun _ => ⟨_, rfl⟩⟩
  | allocation h => exact h.elim

end

/-! ### Two linked records -/

section

attribute [local instance] driveLetters

/-- A record of a process filter, the last of its chain. -/
def processRecord : List UInt8 :=
  [1, 0, 0, 0, 2, 0, 0, 0, 0, 0, 0, 0, 0, 0, 0, 0, 7, 0, 0, 0, 5, 0, 0, 0, 0, 0, 0, 0, 0, 0, 0, 0]

/-- A record of a service filter, the records that follow it, and the name of
the service at the first even address after them. -/
def serviceBytes (rest : List UInt8) (base : Nat) : List UInt8 :=
  [2, 0, 0, 0, 3, 0, 0, 0, .ofNat rest.length, 0, 0, 0, 0, 0, 0, 0] ++
    LittleEndian.bytes 8 (base + (32 + rest.length + base % 2)) ++ [0, 0, 0, 0, 0, 0, 0, 0] ++ rest ++
    List.replicate (base % 2) 0 ++ [0x73, 0, 0, 0] ++ List.replicate (1 - base % 2) 0

def linkedBytes (base : Nat) : List UInt8 := serviceBytes processRecord base

/-- The filters in `linkedBytes`. -/
def linkedFilters : List RawFilter := [⟨.service ⟨[0x73]⟩, 2⟩, ⟨.process ⟨7, 5⟩, 1⟩]

/-- An allocation of whole words that holds both records. -/
def linkedFilterBuffer : AlignedBuffer :=
  ⟨4096, linkedBytes 4096 ++ [0, 0, 0], by decide, by decide⟩

/-- What the parser asks for: each record, and the name unit by unit. -/
def linkedReads : Trace :=
  [⟨.readUnaligned 4096 32, ()⟩,
    ⟨.tryReserveExact 2 2, some ⟨8192, Nat.succ_ne_zero _, Nat.le_of_ble_eq_true rfl⟩⟩,
    ⟨.readUnaligned 4160 2, ()⟩, ⟨.readUnaligned 4162 2, ()⟩, ⟨.readUnaligned 4128 32, ()⟩]

theorem exec_linkedUnits : (readUnits linkedFilterBuffer 4165 4160 []).run.Exec
    [⟨.readUnaligned 4160 2, ()⟩, ⟨.readUnaligned 4162 2, ()⟩] (.ok [0x73]) := by
  rw [readUnits_inside rfl (by decide)]
  refine .step ?_
  change (if linkedFilterBuffer.unitAt 4160 = 0 then pure []
    else readUnits linkedFilterBuffer 4165 4162 [linkedFilterBuffer.unitAt 4160] :
      SysM (List UInt16)).run.Exec _ _
  rw [show linkedFilterBuffer.unitAt 4160 = 0x73 from rfl, if_neg (by decide),
    readUnits_inside rfl (by decide)]
  refine .step ?_
  exact .refl _

theorem exec_linkedTarget :
    (readTarget linkedFilterBuffer (linkedFilterBuffer.recordAt 0) 4096 4165).run.Exec
      [⟨.tryReserveExact 2 2, some ⟨8192, Nat.succ_ne_zero _, Nat.le_of_ble_eq_true rfl⟩⟩,
        ⟨.readUnaligned 4160 2, ()⟩, ⟨.readUnaligned 4162 2, ()⟩] (.ok (.service ⟨[0x73]⟩)) := by
  have hString : (readBufferString linkedFilterBuffer 4160 4096 4165).run.Exec
      [⟨.tryReserveExact 2 2, some ⟨8192, Nat.succ_ne_zero _, Nat.le_of_ble_eq_true rfl⟩⟩,
        ⟨.readUnaligned 4160 2, ()⟩, ⟨.readUnaligned 4162 2, ()⟩] (.ok ⟨[0x73]⟩) := by
    unfold readBufferString
    rw [if_neg (by decide), if_neg (by decide)]
    exact .step (Program.exec_run_bind_iff.mpr
      (.inr ⟨_, [], _, (List.append_nil _).symm, exec_linkedUnits, .refl _⟩))
  exact Program.exec_run_bind_iff.mpr (.inr ⟨_, [], _, (List.append_nil _).symm, hString, .refl _⟩)

theorem exec_linkedFilterBuffer :
    (parseFilterBuffer linkedFilterBuffer 69).run.Exec linkedReads (.ok linkedFilters) := by
  unfold parseFilterBuffer
  rw [if_neg (by decide), if_neg (by decide), if_neg (by decide)]
  change (parseRecords linkedFilterBuffer 69 4096 4165 0 []).run.Exec _ _
  rw [parseRecords_inside rfl (by decide)]
  refine .step (Program.exec_run_bind_iff.mpr (.inr ⟨_, [_], _, rfl, exec_linkedTarget, ?_⟩))
  change (parseRecords linkedFilterBuffer 69 4096 4165 32 [⟨.service ⟨[0x73]⟩, 2⟩]).run.Exec _ _
  rw [parseRecords_inside rfl (by decide)]
  exact .step (.refl _)

/-- The two linked records are what the buffer holds. -/
theorem parseFilterBuffer_exact_linked : HoldsFilters linkedFilterBuffer 69 linkedFilters :=
  ((parseFilterBuffer_exact (by decide) exec_linkedFilterBuffer
    (by simp [ReservationsSucceed, linkedReads])).1 _).mp rfl

end
end RestartManager
