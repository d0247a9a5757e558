import Mathlib.Data.List.Infix
import RestartManager.Session.Typestates

/-! What the progress closure delivers: the longest prefix of the native
reports that is strictly increasing and made of percentages. Nothing after it
is delivered, and a panic of the caller's callback ends it earlier. -/
namespace RestartManager

open Interaction Program

/-! ### Samples -/

namespace Progress

/-- The report that this value was made from. -/
def toNative (progress : Progress) : UInt32 := progress.percentComplete.toUInt32

/-- A report is valid exactly if it is the number of some progress. -/
theorem tryFromNative_eq_some {report : UInt32} {progress : Progress} :
    tryFromNative report = some progress ↔ progress.toNative = report := by
  obtain ⟨percent, hPercent⟩ := progress
  simp only [tryFromNative, toNative]
  constructor
  · intro h
    split at h
    · split at h
      · cases h
        apply UInt32.toNat_inj.mp
        simp_all [UInt32.le_iff_toNat_le]
        omega
      · cases h
    · cases h
  · rintro rfl
    have hSmall : percent.toNat ≤ 100 := by simpa [UInt8.le_iff_toNat_le] using hPercent
    have hSame : percent.toUInt32.toUInt8 = percent := by simp
    rw [if_pos, dif_pos]
    · simp
    · simpa [hSame] using hPercent
    · rw [UInt32.le_iff_toNat_le]
      simp
      omega

/-- A report is malformed exactly if it is above a hundred. -/
theorem tryFromNative_eq_none {report : UInt32} : tryFromNative report = none ↔ 100 < report := by
  simp only [tryFromNative]
  split
  · rename_i hByte
    have hNat : report.toNat ≤ 255 := by simpa [UInt32.le_iff_toNat_le] using hByte
    have hMod : report.toNat % 256 = report.toNat := Nat.mod_eq_of_lt (by omega)
    split
    · rename_i h
      simp [UInt8.le_iff_toNat_le, hMod] at h
      simp [UInt32.lt_iff_toNat_lt]
      omega
    · rename_i h
      simp [UInt8.le_iff_toNat_le, hMod] at h
      simp [UInt32.lt_iff_toNat_lt]
      omega
  · rename_i hByte
    simp [UInt32.le_iff_toNat_le] at hByte
    simp [UInt32.lt_iff_toNat_lt]
    omega

theorem toNative_lt {a b : Progress} : a.toNative < b.toNative ↔ a < b := by
  change _ ↔ a.percentComplete < b.percentComplete
  rw [UInt32.lt_iff_toNat_lt, UInt8.lt_iff_toNat_lt]
  simp [toNative]

theorem not_le {a b : Progress} : ¬a ≤ b ↔ b < a := by
  change ¬a.percentComplete ≤ b.percentComplete ↔ b.percentComplete < a.percentComplete
  rw [UInt8.le_iff_toNat_le, UInt8.lt_iff_toNat_lt]
  omega

theorem lt_trans {a b c : Progress} (hab : a < b) (hbc : b < c) : a < c := by
  rw [← toNative_lt] at *
  exact UInt32.lt_trans hab hbc

end Progress

/-- Progress as Windows promises it. -/
def Increasing (reports : List UInt32) : Prop :=
  reports.Pairwise (· < ·) ∧ ∀ report ∈ reports, report ≤ 100

instance (reports : List UInt32) : Decidable (Increasing reports) :=
  inferInstanceAs (Decidable (_ ∧ _))

/-- What the closure delivers of these reports, after it has delivered `last`. -/
def deliveries : Option Progress → List UInt32 → List Progress
  | _, [] => []
  | last, report :: rest =>
      match Progress.tryFromNative report with
      | none => []
      | some progress =>
          if last.any fun previous => decide (progress ≤ previous) then []
          else progress :: deliveries (some progress) rest

/-- The values are those of the longest prefix that is strictly increasing and
made of percentages: every other such prefix is a prefix of it. -/
structure LongestPrefix (reports : List UInt32) (values : List Progress) : Prop where
  is_prefix : values.map Progress.toNative <+: reports
  increasing : Increasing (values.map Progress.toNative)
  longest : ∀ valid, valid <+: reports → Increasing valid → valid <+: values.map Progress.toNative

section

variable {last : Option Progress} {reports : List UInt32}

/-- The test for a report that does not increase. -/
theorem any_le_eq_true {progress : Progress} :
    (last.any fun previous => decide (progress ≤ previous)) = true ↔
      ¬∀ previous ∈ last, previous < progress := by
  cases last with
  | none => simp
  | some previous => simp [← Progress.not_le]

/-- What is delivered is a prefix of the reports. -/
theorem deliveries_prefix : (deliveries last reports).map Progress.toNative <+: reports := by
  induction reports generalizing last with
  | nil => simp [deliveries]
  | cons report rest ih =>
      rw [deliveries]
      split
      · simp
      · rename_i progress hProgress
        split
        · simp
        · rw [List.map_cons, Progress.tryFromNative_eq_some.mp hProgress]
          exact List.prefix_cons_inj report |>.mpr ih

/-- Nothing is delivered that is not above the last value before. -/
theorem deliveries_after : ∀ progress ∈ deliveries last reports, ∀ previous ∈ last,
    previous < progress := by
  induction reports generalizing last with
  | nil => simp [deliveries]
  | cons report rest ih =>
      rw [deliveries]
      split
      · simp
      · rename_i first hFirst
        split
        · simp
        · rename_i hAny
          have hLast : ∀ previous ∈ last, previous < first := by
            by_contra hNot
            exact hAny (any_le_eq_true.mpr hNot)
          intro progress hMem previous hPrevious
          rcases List.mem_cons.mp hMem with rfl | hMem
          · exact hLast previous hPrevious
          · exact Progress.lt_trans (hLast previous hPrevious) (ih progress hMem first rfl)

/-- The values that are delivered increase. -/
theorem deliveries_pairwise : (deliveries last reports).Pairwise (· < ·) := by
  induction reports generalizing last with
  | nil => simp [deliveries]
  | cons report rest ih =>
      rw [deliveries]
      split
      · simp
      · split
        · simp
        · refine List.pairwise_cons.mpr ⟨fun progress hMem => ?_, ih⟩
          exact deliveries_after progress hMem _ rfl

theorem increasing_deliveries : Increasing ((deliveries last reports).map Progress.toNative) := by
  constructor
  · rw [List.pairwise_map]
    exact deliveries_pairwise.imp Progress.toNative_lt.mpr
  · intro report hMem
    obtain ⟨progress, -, rfl⟩ := List.mem_map.mp hMem
    have hNone : Progress.tryFromNative progress.toNative ≠ none := by
      simp [Progress.tryFromNative_eq_some.mpr rfl]
    rw [ne_eq, Progress.tryFromNative_eq_none] at hNone
    rw [UInt32.lt_iff_toNat_lt] at hNone
    rw [UInt32.le_iff_toNat_le]
    omega

/-- Every valid prefix is within it: by induction on the reports. -/
theorem deliveries_longest {valid : List UInt32} (hPrefix : valid <+: reports)
    (hValid : Increasing valid)
    (hLast : ∀ report ∈ valid, ∀ previous ∈ last, Progress.toNative previous < report) :
    valid <+: (deliveries last reports).map Progress.toNative := by
  induction reports generalizing last valid with
  | nil => simpa [deliveries] using hPrefix
  | cons report rest ih =>
      cases valid with
      | nil => exact List.nil_prefix
      | cons first valid =>
          obtain ⟨rfl, hRest⟩ := List.cons_prefix_cons.mp hPrefix
          obtain ⟨hPairwise, hBound⟩ := hValid
          obtain ⟨hFirst, hOthers⟩ := List.pairwise_cons.mp hPairwise
          have hSmall : ¬100 < first := by
            have := hBound first List.mem_cons_self
            rw [UInt32.le_iff_toNat_le] at this
            rw [UInt32.lt_iff_toNat_lt]
            omega
          obtain ⟨progress, hProgress⟩ : ∃ progress, Progress.tryFromNative first = some progress := by
            rw [← Option.ne_none_iff_exists', ne_eq, Progress.tryFromNative_eq_none]
            exact hSmall
          obtain rfl := Progress.tryFromNative_eq_some.mp hProgress
          have hAny : ¬(last.any fun previous => decide (progress ≤ previous)) = true := by
            rw [any_le_eq_true, not_not]
            intro previous hPrevious
            exact Progress.toNative_lt.mp (hLast _ List.mem_cons_self previous hPrevious)
          rw [deliveries, hProgress]
          dsimp only
          rw [if_neg hAny, List.map_cons]
          refine (List.prefix_cons_inj _).mpr (ih hRest ⟨hOthers, ?_⟩ ?_)
          · exact fun report hMem => hBound report (List.mem_cons_of_mem _ hMem)
          · rintro report hMem previous ⟨⟩
            exact hFirst report hMem

/-- What the loop delivers is the longest valid prefix, by the two bounds above. -/
theorem deliveries_longestPrefix : LongestPrefix reports (deliveries none reports) where
  is_prefix := deliveries_prefix
  increasing := increasing_deliveries
  longest _ hPrefix hValid := deliveries_longest hPrefix hValid fun _ _ _ => nofun

/-- Every report is delivered exactly when all of them are in order. -/
theorem map_deliveries_eq : (deliveries none reports).map Progress.toNative = reports ↔
    Increasing reports := by
  constructor
  · intro h
    rw [← h]
    exact increasing_deliveries
  · intro h
    have hWhole := deliveries_longestPrefix.longest reports List.prefix_rfl h
    exact deliveries_prefix.eq_of_length_le hWhole.length_le

/-- A longest prefix is what the closure delivers. -/
theorem LongestPrefix.eq_deliveries {values : List Progress} (h : LongestPrefix reports values) :
    values = deliveries none reports := by
  have hDelivered := @deliveries_longestPrefix reports
  have hLeft := h.longest _ hDelivered.is_prefix hDelivered.increasing
  have hRight := hDelivered.longest _ h.is_prefix h.increasing
  have hSame := hRight.eq_of_length_le hLeft.length_le
  refine List.map_injective_iff.mpr ?_ hSame
  intro a b hNative
  exact Option.some.inj ((Progress.tryFromNative_eq_some.mpr rfl).symm.trans
    (Progress.tryFromNative_eq_some.mpr hNative.symm))

end

/-! ### Delivering -/

section

variable [Platform]

/-- A delivery that returns. -/
def Callback.delivered (callback : Callback) (progress : Progress) : Event :=
  match callback with
  | .user => ⟨.invokeCallback progress, none⟩
  | .watch => ⟨.sendReplace progress, ()⟩

/-- A delivery that panics. -/
def panicked (progress : Progress) (payload : Payload) : Event :=
  ⟨.invokeCallback progress, some payload⟩

/-- What the closure has captured once these reports were delivered. -/
def Delivery.after (last : Option Progress) (reports : List UInt32) : Delivery where
  last := (deliveries last reports).getLast?.or last
  malformed := decide ((deliveries last reports).map Progress.toNative ≠ reports)

variable {callback : Callback} {reports : List UInt32} {last : Option Progress} {trace : Trace}

/-- A callback returns or, if it is the caller's, panics. -/
theorem Callback.exec_call_iff {progress : Progress} {result : Option Payload} :
    (callback.call progress).Exec trace result ↔
      (trace = [callback.delivered progress] ∧ result = none) ∨
      ∃ payload, callback = .user ∧ trace = [panicked progress payload] ∧ result = some payload := by
  cases callback with
  | user =>
      rw [Callback.call, request, Program.exec_call_iff]
      constructor
      · rintro ⟨response, rest, rfl, h⟩
        obtain ⟨rfl, rfl⟩ := exec_done_iff.mp h
        cases result with
        | none => exact .inl ⟨rfl, rfl⟩
        | some payload => exact .inr ⟨payload, rfl, rfl, rfl⟩
      · rintro (⟨rfl, rfl⟩ | ⟨payload, -, rfl, rfl⟩)
        · exact ⟨none, [], rfl, .refl _⟩
        · exact ⟨some payload, [], rfl, .refl _⟩
  | watch =>
      rw [Callback.call, request_bind, Program.exec_call_iff]
      constructor
      · rintro ⟨response, rest, rfl, h⟩
        obtain ⟨rfl, rfl⟩ := exec_done_iff.mp h
        exact .inl ⟨rfl, rfl⟩
      · rintro (⟨rfl, rfl⟩ | ⟨payload, hUser, -⟩)
        · exact ⟨(), [], rfl, .refl _⟩
        · cases hUser

/-- The state of a closure that delivers nothing more. -/
def Stopped (state : CallbackState Delivery) : Prop :=
  state.panic ≠ none ∨ state.captured.malformed = true

/-- A callback that has stopped stays stopped. -/
theorem callCallback_stopped {state : CallbackState Delivery} (h : Stopped state) (report : UInt32) :
    callCallback (deliverProgress callback) state report = pure state := by
  obtain ⟨captured, panic⟩ := state
  cases panic with
  | some payload => rfl
  | none =>
      have hMalformed : captured.malformed = true := h.resolve_left fun hPanic => hPanic rfl
      simp [callCallback, deliverProgress, hMalformed]

/-- No report is delivered after a panic or a malformed one. -/
theorem foldlM_stopped {state : CallbackState Delivery} (h : Stopped state) :
    reports.foldlM (callCallback (deliverProgress callback)) state = pure state := by
  induction reports with
  | nil => rfl
  | cons report rest ih => rw [List.foldlM_cons, callCallback_stopped h, pure_bind, ih]

/-- What the delivery of these reports can do: every value is delivered, or
the caller's callback panics at one of them. -/
inductive Delivers (callback : Callback) (last : Option Progress) (reports : List UInt32) :
    Trace → CallbackState Delivery → Prop
  | all : Delivers callback last reports ((deliveries last reports).map callback.delivered)
      ⟨.after last reports, none⟩
  | panic {before rest : List Progress} {progress : Progress} {payload : Payload}
      (reached : deliveries last reports = before ++ progress :: rest) (user : callback = .user) :
      Delivers callback last reports (before.map callback.delivered ++ [panicked progress payload])
        ⟨⟨some progress, false⟩, some payload⟩

/-- A report that ends the delivery. -/
theorem Delivers.of_malformed {final : CallbackState Delivery} (hNone : deliveries last reports = [])
    (hReports : reports ≠ []) :
    Delivers callback last reports trace final ↔ trace = [] ∧ final = ⟨⟨last, true⟩, none⟩ := by
  have hAfter : Delivery.after last reports = ⟨last, true⟩ := by
    simp [Delivery.after, hNone, hReports.symm]
  constructor
  · intro h
    cases h with
    | all => exact ⟨by rw [hNone, List.map_nil], by rw [hAfter]⟩
    | panic reached => simp [hNone] at reached
  · rintro ⟨rfl, rfl⟩
    have hAll : Delivers callback last reports _ _ := .all
    rwa [hNone, hAfter] at hAll

/-- A report that is delivered before the others. -/
theorem Delivers.of_delivered {report : UInt32} {progress : Progress}
    {final : CallbackState Delivery} (hProgress : progress.toNative = report)
    (hCons : deliveries last (report :: reports) = progress :: deliveries (some progress) reports) :
    Delivers callback last (report :: reports) trace final ↔
      (∃ rest, trace = callback.delivered progress :: rest ∧
        Delivers callback (some progress) reports rest final) ∨
      ∃ payload, callback = .user ∧ trace = [panicked progress payload] ∧
        final = ⟨⟨some progress, false⟩, some payload⟩ := by
  have hAfter : Delivery.after last (report :: reports) = .after (some progress) reports := by
    simp [Delivery.after, hCons, hProgress, List.getLast?_cons]
  constructor
  · intro h
    cases h with
    | all =>
        rw [hCons, hAfter]
        exact .inl ⟨_, rfl, .all⟩
    | @panic before rest progress' payload reached user =>
        rw [hCons] at reached
        cases before with
        | nil =>
            obtain ⟨rfl, -⟩ := List.cons.inj reached
            exact .inr ⟨payload, user, rfl, rfl⟩
        | cons first before =>
            obtain ⟨rfl, hRest⟩ := List.cons.inj reached
            exact .inl ⟨_, rfl, .panic hRest user⟩
  · rintro (⟨rest, rfl, h⟩ | ⟨payload, user, rfl, rfl⟩)
    · cases h with
      | all =>
          have hAll : Delivers callback last (report :: reports) _ _ := .all
          rwa [hCons, hAfter] at hAll
      | @panic before rest progress' payload reached user =>
          have hReached : deliveries last (report :: reports) =
              (progress :: before) ++ progress' :: rest := by
            rw [hCons, reached]
            rfl
          exact .panic hReached user
    · exact @Delivers.panic _ _ _ _ [] _ _ _ hCons user

/-- The loop over the reports does exactly what `Delivers` says. -/
theorem exec_reports_iff {final : CallbackState Delivery} :
    (reports.foldlM (callCallback (deliverProgress callback)) ⟨⟨last, false⟩, none⟩).Exec trace final ↔
      Delivers callback last reports trace final := by
  induction reports generalizing last trace with
  | nil =>
      have hAll : Delivers callback last [] [] ⟨⟨last, false⟩, none⟩ := .all
      rw [List.foldlM_nil, pure_eq, exec_done_iff]
      constructor
      · rintro ⟨rfl, rfl⟩
        exact hAll
      · intro h
        cases h with
        | all => exact ⟨rfl, rfl⟩
        | panic reached => simp [deliveries] at reached
  | cons report reports ih =>
      rw [List.foldlM_cons]
      have hMalformed (hNone : deliveries last (report :: reports) = [])
          (hStep : callCallback (deliverProgress callback) ⟨⟨last, false⟩, none⟩ report =
            pure ⟨⟨last, true⟩, none⟩) :
          (callCallback (deliverProgress callback) ⟨⟨last, false⟩, none⟩ report >>=
            reports.foldlM (callCallback (deliverProgress callback))).Exec trace final ↔
          Delivers callback last (report :: reports) trace final := by
        rw [hStep, pure_bind, foldlM_stopped (.inr rfl), pure_eq, exec_done_iff,
          Delivers.of_malformed hNone (List.cons_ne_nil _ _)]
      cases hProgress : Progress.tryFromNative report with
      | none =>
          apply hMalformed
          · simp [deliveries, hProgress]
          · simp [callCallback, deliverProgress, hProgress]
      | some progress =>
          by_cases hAny : (last.any fun previous => decide (progress ≤ previous)) = true
          · apply hMalformed
            · simp [deliveries, hProgress, hAny]
            · simp [callCallback, deliverProgress, hProgress, hAny]
          · have hCons : deliveries last (report :: reports) =
                progress :: deliveries (some progress) reports := by
              simp [deliveries, hProgress, hAny]
            have hStep : callCallback (deliverProgress callback) ⟨⟨last, false⟩, none⟩ report =
                callback.call progress >>= fun panic => pure ⟨⟨some progress, false⟩, panic⟩ := by
              simp [callCallback, deliverProgress, hProgress, hAny]
            rw [hStep, bind_assoc, exec_bind_iff,
              Delivers.of_delivered (Progress.tryFromNative_eq_some.mp hProgress) hCons]
            simp only [pure_bind, Callback.exec_call_iff]
            constructor
            · rintro ⟨first, second, result, rfl, ⟨rfl, rfl⟩ | ⟨payload, hUser, rfl, rfl⟩, h⟩
              · exact .inl ⟨second, rfl, ih.mp h⟩
              · rw [foldlM_stopped (.inl (Option.some_ne_none _)), pure_eq, exec_done_iff] at h
                obtain ⟨rfl, rfl⟩ := h
                exact .inr ⟨payload, hUser, rfl, rfl⟩
            · rintro (⟨rest, rfl, h⟩ | ⟨payload, hUser, rfl, rfl⟩)
              · exact ⟨_, rest, none, rfl, .inl ⟨rfl, rfl⟩, ih.mpr h⟩
              · refine ⟨_, [], some payload, rfl, .inr ⟨payload, hUser, rfl, rfl⟩, ?_⟩
                rw [foldlM_stopped (.inl (Option.some_ne_none _))]
                exact .refl _

/-- A completed run of an operation with a progress closure, whose native call
`native` was answered by `reply`. -/
theorem exec_runWithCallback_iff {operation : Bool → Native OperationReply}
    {result : Except Payload (SysResult Unit) × Delivery} :
    (runWithCallback (deliverProgress callback) ⟨last, false⟩ operation).Exec trace result ↔
      (trace = [⟨.installLease, false⟩] ∧ result = (.ok (.error .callbackInUse), ⟨last, false⟩)) ∨
      ∃ native reply delivered state, (operation true).Exec native reply ∧
        Delivers callback last reply.reports delivered state ∧
        trace = ⟨.installLease, true⟩ :: (native ++ (delivered ++ [⟨.releaseLease, ()⟩])) ∧
        result = (match state.panic with
          | some payload => (.error payload, state.captured)
          | none => (.ok (check reply.code), state.captured)) := by
  unfold runWithCallback
  rw [request_bind, Program.exec_call_iff]
  constructor
  · rintro ⟨installed, rest, rfl, hRun⟩
    cases installed with
    | false =>
        obtain ⟨rfl, rfl⟩ := exec_done_iff.mp hRun
        exact .inl ⟨rfl, rfl⟩
    | true =>
        obtain ⟨native, rest, reply, rfl, hNative, hReports⟩ := exec_bind_iff.mp hRun
        obtain ⟨delivered, rest, state, rfl, hDelivered, hRelease⟩ := exec_bind_iff.mp hReports
        obtain ⟨response, rest, rfl, hReturn⟩ := Program.exec_call_iff.mp hRelease
        refine .inr ⟨native, reply, delivered, state, hNative, exec_reports_iff.mp hDelivered, ?_⟩
        cases hPanic : state.panic with
        | none =>
            simp only [Program.bind, hPanic] at hReturn
            obtain ⟨rfl, rfl⟩ := exec_done_iff.mp hReturn
            exact ⟨rfl, rfl⟩
        | some payload =>
            simp only [Program.bind, hPanic] at hReturn
            obtain ⟨rfl, rfl⟩ := exec_done_iff.mp hReturn
            exact ⟨rfl, rfl⟩
  · rintro (⟨rfl, rfl⟩ | ⟨native, reply, delivered, state, hNative, hDelivered, rfl, rfl⟩)
    · exact ⟨false, [], rfl, .refl _⟩
    · refine ⟨true, _, rfl, exec_bind_iff.mpr ⟨native, _, reply, rfl, hNative, ?_⟩⟩
      refine exec_bind_iff.mpr ⟨delivered, _, state, rfl, exec_reports_iff.mpr hDelivered, ?_⟩
      rw [request_bind, Program.exec_call_iff]
      refine ⟨(), [], rfl, ?_⟩
      cases state.panic <;> exact .refl _

end

end RestartManager
