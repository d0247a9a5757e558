import RestartManager.Session.RecoveryObligation
import RestartManager.Session.WideStrings

/-! The key of a session on its way from the primary installer to a secondary
one: what Windows wrote, the text that is handed over, and what Windows is given
again. -/
namespace RestartManager

open Interaction Contract Program

namespace SessionKey

variable {key : SessionKey}

theorem length_eq (key : SessionKey) : key.value.length = 32 := by
  have hValid := key.valid
  simp only [isValidKey, Bool.and_eq_true, decide_eq_true_eq] at hValid
  exact hValid.1

theorem ascii (key : SessionKey) : ∀ byte ∈ key.value, byte < 0x80 := by
  have hValid := key.valid
  simp only [isValidKey, Bool.and_eq_true, List.all_eq_true] at hValid
  intro byte hMem
  have hDigit := hValid.2 byte hMem
  simp only [isAsciiHexdigit, Bool.or_eq_true, Bool.and_eq_true, decide_eq_true_eq,
    UInt8.le_iff_toNat_le, UInt8.reduceToNat] at hDigit
  have hSmall : byte.toNat < 128 := by omega
  exact UInt8.lt_iff_toNat_lt.mpr hSmall

/-- The text of a key parses, and to that key alone. -/
theorem fromStr_eq_ok {value : List UInt8} : fromStr value = .ok key ↔ value = key.intoString := by
  obtain ⟨digits, hValid⟩ := key
  unfold fromStr intoString
  split_ifs with h
  · simp
  · simp only [false_iff]
    rintro rfl
    exact h hValid

theorem generated_eq_ok {value : List UInt8} : generated value = .ok key ↔ value = key.value := by
  obtain ⟨digits, hValid⟩ := key
  unfold generated
  split_ifs with h
  · simp
  · simp only [false_iff]
    rintro rfl
    exact h hValid

theorem asStr_intoString (key : SessionKey) : key.asStr.intoString = some key.value := by
  have hUnits : ∀ unit ∈ key.asStr.units, unit.toNat < 0x80 := by
    intro unit hMem
    obtain ⟨byte, hByte, rfl⟩ := List.mem_map.mp hMem
    exact UInt8.lt_iff_toNat_lt.mp (key.ascii byte hByte)
  rw [OsString.intoString, if_pos (Wtf8.isUnicode_ascii hUnits)]
  exact congrArg some (Wtf8.encode_ascii key.ascii)

/-- The text of a string is a key exactly when the string is one. -/
theorem eq_asStr_iff {value : OsString} : value.intoString = some key.value ↔ value = key.asStr := by
  constructor
  · intro h
    unfold OsString.intoString at h
    split at h
    · have hBytes : Wtf8.encode value.units = key.value := Option.some.inj h
      have hUnits : value.units = key.value.map UInt8.toUInt16 := by
        rw [← hBytes]
        apply Wtf8.eq_of_encode_ascii
        rw [hBytes]
        exact key.ascii
      obtain ⟨units⟩ := value
      exact congrArg OsString.mk hUnits
    · cases h
  · rintro rfl
    exact key.asStr_intoString

/-- A buffer of 33 units holds a key when it is the key with its terminator. -/
theorem decodeFixed_asStr {buffer : List UInt16} (hLength : buffer.length = 33) :
    decodeFixed buffer = .ok key.asStr ↔ buffer = (WideString.new key.asStr).buffer := by
  constructor
  · intro h
    by_cases hNul : 0 ∈ buffer
    · rw [decodeFixed_eq hNul] at h
      have hTake : buffer.takeWhile (· ≠ 0) = key.asStr.units := congrArg OsString.units (Except.ok.inj h)
      have hSplit := List.takeWhile_append_dropWhile (p := (· ≠ 0)) (l := buffer)
      have hLengths := congrArg List.length hSplit
      have hDigits : (buffer.takeWhile (· ≠ 0)).length = 32 := by
        rw [hTake]
        exact (List.length_map _).trans key.length_eq
      rw [List.length_append, hDigits, hLength] at hLengths
      obtain ⟨unit, hLast⟩ := List.length_eq_one_iff.mp (Nat.add_left_cancel hLengths)
      have hZero : unit = 0 := by
        have hHead := List.head?_dropWhile_not (p := (· ≠ 0)) (l := buffer)
        rw [hLast] at hHead
        simpa using hHead
      rw [← hSplit, hTake, hLast, hZero]
      rfl
    · have hNone : buffer.findIdx? (· = 0) = none := by
        rw [List.findIdx?_eq_none_iff]
        intro unit hMem
        exact decide_eq_false fun hZero => hNul (hZero ▸ hMem)
      rw [decodeFixed, hNone] at h
      cases h
  · rintro rfl
    exact WideString.decodeFixed_new key.asStr_nulFree

end SessionKey

section

variable [Platform] {trace : Trace}

/-- What a start makes of the reply of Windows. A session is opened exactly when
the buffer holds a key, and is ended again when it does not. -/
inductive Started (reply : StartReply) : Trace → Except Error SessionCore → Prop
  | opened {key : SessionKey} (code : reply.code = ERROR_SUCCESS)
      (keyed : reply.key.toList = (WideString.new key.asStr).buffer) :
      Started reply [⟨.rmStartSession, reply⟩] (.ok ⟨⟨reply.raw, false⟩, key⟩)
  | malformed {ended : UInt32} {error : Error} (code : reply.code = ERROR_SUCCESS)
      (unkeyed : ∀ key : SessionKey, reply.key.toList ≠ (WideString.new key.asStr).buffer)
      (kind : error.kind = .malformedOsData) (raw : error.rawOsError = none) :
      Started reply [⟨.rmStartSession, reply⟩, ⟨.rmEndSession reply.raw, ended⟩] (.error error)
  | failed (code : reply.code ≠ ERROR_SUCCESS) :
      Started reply [⟨.rmStartSession, reply⟩] (.error (mapSysError (.os reply.code)))

theorem wp_started : recording.wp SessionCore.start
    (fun result trace => ∃ reply, Started reply trace result) [] := by
  rw [SessionCore.start, wp_bind, SessionHandle.start, wp_request_bind]
  refine ⟨trivial, fun reply _ => ?_⟩
  by_cases hCode : reply.code = ERROR_SUCCESS
  · have hLength : reply.key.toList.length = 33 := reply.key.length_toList
    simp only [check, hCode, if_pos]
    cases hDecode : decodeFixed reply.key.toList with
    | error error =>
        refine ⟨trivial, fun ended _ => ⟨reply, .malformed hCode ?_ ?_ ?_⟩⟩
        · intro key hKey
          rw [(key.decodeFixed_asStr hLength).mpr hKey] at hDecode
          cases hDecode
        all_goals
          unfold decodeFixed at hDecode
          split at hDecode <;> cases hDecode
          rfl
    | ok units =>
        have hUnkeyed (hText : ∀ key : SessionKey, units.intoString ≠ some key.value) (key : SessionKey) :
            reply.key.toList ≠ (WideString.new key.asStr).buffer := by
          intro hKey
          rw [(key.decodeFixed_asStr hLength).mpr hKey] at hDecode
          exact hText key (SessionKey.eq_asStr_iff.mpr (Except.ok.inj hDecode).symm)
        dsimp only
        cases hText : units.intoString with
        | none =>
            refine ⟨trivial, fun ended _ => ⟨reply, .malformed hCode (hUnkeyed ?_) rfl rfl⟩⟩
            rw [hText]
            exact fun key => by simp
        | some text =>
            dsimp only
            rw [Program.pure_eq, wp_done]
            dsimp only
            cases hKey : SessionKey.generated text with
            | ok key =>
                obtain rfl := SessionKey.generated_eq_ok.mp hKey
                obtain rfl := SessionKey.eq_asStr_iff.mp hText
                exact ⟨reply, .opened hCode ((key.decodeFixed_asStr hLength).mp hDecode)⟩
            | error error =>
                refine ⟨trivial, fun ended _ => ⟨reply, .malformed hCode (hUnkeyed ?_) ?_ ?_⟩⟩
                · intro key hValue
                  rw [SessionKey.generated_eq_ok.mpr (Option.some.inj (hText.symm.trans hValue))] at hKey
                  cases hKey
                all_goals
                  unfold SessionKey.generated at hKey
                  split at hKey <;> cases hKey
                  rfl
  · simp only [check, hCode]
    exact ⟨reply, .failed hCode⟩

theorem exec_join {key : SessionKey} {result : Except Error SessionCore}
    (run : (SessionCore.join key).run.Exec trace result) : ∃ reply,
      trace = [⟨.rmJoinSession (.new key.asStr), reply⟩] ∧
      result = ((check reply.code).mapError mapJoinError).map fun _ => ⟨⟨reply.raw, false⟩, key⟩ := by
  have hJoin : recording.wp (SessionCore.join key).run (fun result trace => ∃ reply,
      trace = [⟨.rmJoinSession (.new key.asStr), reply⟩] ∧
      result = ((check reply.code).mapError mapJoinError).map fun _ => ⟨⟨reply.raw, false⟩, key⟩) [] := by
    unfold SessionCore.join SessionHandle.join
    rw [wp_run_bind, wp_mapErr, wp_run_bind, wp_sysCall]
    refine ⟨trivial, fun reply _ => ?_⟩
    change recording.wp _ _ _
    rw [wp_run_bind, wp_ofResult]
    cases hCode : check reply.code with
    | ok value => exact ⟨reply, rfl, by rw [hCode]; rfl⟩
    | error error => exact ⟨reply, rfl, by rw [hCode]; rfl⟩
  exact exec_recording run hJoin

/-- A primary installer that has its key opened exactly the session of that key.
Its text parses on the other side, where a join passes to Windows, unit for
unit, the buffer that Windows filled. -/
theorem session_key_handed_over {result : Except Error RestartSession}
    (run : RestartSession.new.Exec trace result) : ∃ reply,
      Started reply trace (result.map RestartSession.core) ∧
      ∀ session, result = .ok session →
        SessionKey.fromStr session.core.key.intoString = .ok session.core.key ∧
        ∀ joining joined, (JoinedSession.join session.core.key).run.Exec joining joined →
          ∃ wide answer, joining = [⟨.rmJoinSession wide, answer⟩] ∧ wide.buffer = reply.key.toList ∧
            joined = ((check answer.code).mapError mapJoinError).map fun _ =>
              ⟨⟨answer.raw, false⟩, session.core.key⟩ := by
  obtain ⟨started, hStart, rfl⟩ := exec_map_iff.mp run
  obtain ⟨reply, hStarted⟩ := exec_recording hStart wp_started
  have hMap : (started.map RestartSession.mk).map RestartSession.core = started := by
    cases started <;> rfl
  refine ⟨reply, hMap.symm ▸ hStarted, ?_⟩
  intro session hSession
  cases hStarted with
  | malformed => cases hSession
  | failed => cases hSession
  | @opened key hCode hKeyed =>
      cases hSession
      refine ⟨SessionKey.fromStr_eq_ok.mpr rfl, ?_⟩
      intro joining joined hJoin
      rcases exec_run_bind_iff.mp hJoin with ⟨error, hFailed, rfl⟩ | ⟨first, rest, core, rfl, hCore, hRest⟩
      · obtain ⟨answer, rfl, hAnswer⟩ := exec_join hFailed
        refine ⟨_, answer, rfl, hKeyed.symm, ?_⟩
        cases hCheck : check answer.code with
        | ok value =>
            rw [hCheck] at hAnswer
            cases hAnswer
        | error error =>
            rw [hCheck] at hAnswer
            cases hAnswer
            rfl
      · obtain ⟨answer, rfl, hAnswer⟩ := exec_join hCore
        obtain ⟨rfl, rfl⟩ := exec_done_iff.mp hRest
        refine ⟨_, answer, rfl, hKeyed.symm, ?_⟩
        cases hCheck : check answer.code with
        | ok value =>
            rw [hCheck] at hAnswer
            cases hAnswer
            rfl
        | error error =>
            rw [hCheck] at hAnswer
            cases hAnswer

end

section

attribute [local instance] Platform.driveLetters

/-- A session whose key is all zeros. -/
theorem session_key_handed_over_zeros : ∃ reply,
    Started reply [⟨.rmStartSession, ⟨ERROR_SUCCESS, 3, zeroKey⟩⟩]
      (.ok ⟨⟨3, false⟩, ⟨List.replicate 32 0x30, by decide⟩⟩) := by
  let core : SessionCore := ⟨⟨3, false⟩, ⟨List.replicate 32 0x30, by decide⟩⟩
  have run : RestartSession.new.Exec [⟨.rmStartSession, ⟨ERROR_SUCCESS, 3, zeroKey⟩⟩] (.ok ⟨core⟩) :=
    .step (.refl _)
  obtain ⟨reply, hStarted, -⟩ := session_key_handed_over run
  exact ⟨reply, hStarted⟩

end

end RestartManager
