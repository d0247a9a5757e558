import Mathlib.Data.List.Basic
import Mathlib.Tactic.SplitIfs

/-! The generalized UTF-8 encoding of arbitrary sixteen-bit code units. Paired
surrogates become one supplementary code point, and an unpaired surrogate is
encoded like any other code point of its range. -/
namespace Wtf8

def isLeadSurrogate (unit : UInt16) : Bool := 0xD800 ≤ unit.toNat ∧ unit.toNat ≤ 0xDBFF

def isTrailSurrogate (unit : UInt16) : Bool := 0xDC00 ≤ unit.toNat ∧ unit.toNat ≤ 0xDFFF

/-- The code point of a lead and a trail surrogate. -/
def combine (lead trail : UInt16) : Nat :=
  0x10000 + (lead.toNat - 0xD800) * 0x400 + (trail.toNat - 0xDC00)

def codePoints : List UInt16 → List Nat
  | [] => []
  | [unit] => [unit.toNat]
  | first :: second :: rest =>
      if isLeadSurrogate first && isTrailSurrogate second then
        combine first second :: codePoints rest
      else first.toNat :: codePoints (second :: rest)

def encodeCodePoint (point : Nat) : List UInt8 :=
  if point < 0x80 then [.ofNat point]
  else if point < 0x800 then [.ofNat (0xC0 + point / 0x40), .ofNat (0x80 + point % 0x40)]
  else if point < 0x10000 then
    [.ofNat (0xE0 + point / 0x1000), .ofNat (0x80 + point / 0x40 % 0x40),
      .ofNat (0x80 + point % 0x40)]
  else
    [.ofNat (0xF0 + point / 0x40000), .ofNat (0x80 + point / 0x1000 % 0x40),
      .ofNat (0x80 + point / 0x40 % 0x40), .ofNat (0x80 + point % 0x40)]

def encode (units : List UInt16) : List UInt8 := (codePoints units).flatMap encodeCodePoint

/-- No unit is an unpaired surrogate, so the units encode Unicode text. -/
def isUnicode (units : List UInt16) : Bool :=
  (codePoints units).all fun point => !(0xD800 ≤ point && point ≤ 0xDFFF)

theorem combine_bounds {lead trail : UInt16} (hLead : isLeadSurrogate lead = true)
    (hTrail : isTrailSurrogate trail = true) :
    0x10000 ≤ combine lead trail ∧ combine lead trail < 0x110000 := by
  simp only [isLeadSurrogate, isTrailSurrogate, decide_eq_true_eq] at hLead hTrail
  unfold combine
  omega

theorem codePoints_lt (units : List UInt16) : ∀ point ∈ codePoints units, point < 0x110000 := by
  induction units using codePoints.induct with
  | case1 => simp [codePoints]
  | case2 unit =>
      have := unit.toNat_lt
      simp only [codePoints, List.mem_singleton, forall_eq]
      omega
  | case3 first second rest h ih =>
      rw [Bool.and_eq_true] at h
      simp only [codePoints, h.1, h.2, Bool.and_self, ↓reduceIte, List.mem_cons, forall_eq_or_imp]
      exact ⟨(combine_bounds h.1 h.2).2, ih⟩
  | case4 first second rest h ih =>
      have := first.toNat_lt
      simp only [codePoints, h, Bool.false_eq_true, ↓reduceIte, List.mem_cons, forall_eq_or_imp]
        at ih ⊢
      exact ⟨by omega, ih⟩

/-- A zero code point comes from a zero unit alone: surrogate pairs encode
only supplementary code points. -/
theorem zero_mem_codePoints (units : List UInt16) : 0 ∈ codePoints units ↔ 0 ∈ units := by
  have zero_iff (unit : UInt16) : 0 = unit.toNat ↔ 0 = unit := by
    rw [← UInt16.toNat_inj]
    rfl
  induction units using codePoints.induct with
  | case1 => simp [codePoints]
  | case2 unit => simp [codePoints, zero_iff]
  | case3 first second rest h ih =>
      rw [Bool.and_eq_true] at h
      have hPair := combine_bounds h.1 h.2
      have hFirst : (0 : UInt16) ≠ first := by rintro rfl; simp [isLeadSurrogate] at h
      have hSecond : (0 : UInt16) ≠ second := by rintro rfl; simp [isTrailSurrogate] at h
      simp only [codePoints, h.1, h.2, Bool.and_self, ↓reduceIte, List.mem_cons, ih, hFirst,
        hSecond, false_or, or_iff_right_iff_imp]
      omega
  | case4 first second rest h ih =>
      have ih : 0 ∈ codePoints (second :: rest) ↔ 0 ∈ second :: rest := ih
      rw [codePoints, if_neg h, List.mem_cons, ih, zero_iff]
      exact List.mem_cons.symm

private theorem ofNat_eq_zero {n : Nat} (h : n < 256) : (0 : UInt8) = .ofNat n ↔ n = 0 := by
  rw [← UInt8.toNat_inj, UInt8.toNat_ofNat_of_lt' (by simpa using h)]
  exact eq_comm

theorem zero_mem_encodeCodePoint {point : Nat} (h : point < 0x110000) :
    0 ∈ encodeCodePoint point ↔ point = 0 := by
  unfold encodeCodePoint
  split_ifs with hOne hTwo hThree
  · rw [List.mem_singleton, ofNat_eq_zero (by omega)]
  all_goals
    simp only [List.mem_cons, List.not_mem_nil, or_false]
    repeat rw [ofNat_eq_zero (by omega)]
    omega

/-- The encoded bytes contain a zero exactly when the units do. -/
theorem zero_mem_encode (units : List UInt16) : 0 ∈ encode units ↔ 0 ∈ units := by
  rw [← zero_mem_codePoints, encode, List.mem_flatMap]
  constructor
  · rintro ⟨point, hPoint, hZero⟩
    rwa [(zero_mem_encodeCodePoint (codePoints_lt units point hPoint)).mp hZero] at hPoint
  · intro h
    exact ⟨0, h, by simp [encodeCodePoint]⟩

theorem encode_eq_nil (units : List UInt16) : encode units = [] ↔ units = [] := by
  have point_ne_nil (point : Nat) : encodeCodePoint point ≠ [] := by
    unfold encodeCodePoint
    split_ifs <;> simp
  cases units with
  | nil => simp [encode, codePoints]
  | cons first rest =>
      have hPoints : codePoints (first :: rest) ≠ [] := by
        cases rest with
        | nil => simp [codePoints]
        | cons second rest => rw [codePoints]; split_ifs <;> simp
      obtain ⟨point, points, hEq⟩ := List.exists_cons_of_ne_nil hPoints
      simp [encode, hEq, point_ne_nil]

/-- The last byte of a longer encoding is no ASCII byte. -/
theorem lt_of_encodeCodePoint_ascii {point : Nat} (h : ∀ byte ∈ encodeCodePoint point, byte < 0x80) :
    point < 0x80 := by
  by_contra hLarge
  have hLast : (.ofNat (0x80 + point % 0x40) : UInt8) ∈ encodeCodePoint point := by
    unfold encodeCodePoint
    split_ifs <;> simp
  have hByte := UInt8.lt_iff_toNat_lt.mp (h _ hLast)
  rw [UInt8.toNat_ofNat_of_lt' (by change _ < 256; omega)] at hByte
  exact absurd hByte (by change ¬_ < 128; omega)

theorem codePoints_ascii (units : List UInt16) (h : ∀ unit ∈ units, unit.toNat < 0x80) :
    codePoints units = units.map UInt16.toNat := by
  induction units using codePoints.induct with
  | case1 => rfl
  | case2 unit => rfl
  | case3 first second rest hPair ih =>
      have hFirst := h first List.mem_cons_self
      simp only [isLeadSurrogate, Bool.and_eq_true, decide_eq_true_eq] at hPair
      omega
  | case4 first second rest hPair ih =>
      rw [codePoints, if_neg hPair, ih fun unit hMem => h unit (List.mem_cons_of_mem _ hMem)]
      rfl

theorem isUnicode_ascii {units : List UInt16} (h : ∀ unit ∈ units, unit.toNat < 0x80) :
    isUnicode units = true := by
  rw [isUnicode, codePoints_ascii units h, List.all_map, List.all_eq_true]
  intro unit hMem
  have hUnit := h unit hMem
  simp only [Function.comp_apply, Bool.not_eq_true', Bool.and_eq_false_iff, decide_eq_false_iff_not]
  omega

/-- ASCII text is encoded byte by byte. -/
theorem encode_ascii {bytes : List UInt8} (h : ∀ byte ∈ bytes, byte < 0x80) :
    encode (bytes.map UInt8.toUInt16) = bytes := by
  have hUnits : ∀ unit ∈ bytes.map UInt8.toUInt16, unit.toNat < 0x80 := by
    intro unit hMem
    obtain ⟨byte, hByte, rfl⟩ := List.mem_map.mp hMem
    exact UInt8.lt_iff_toNat_lt.mp (h byte hByte)
  rw [encode, codePoints_ascii _ hUnits, List.map_map]
  clear hUnits
  induction bytes with
  | nil => rfl
  | cons byte rest ih =>
      have hByte : byte.toNat < 0x80 := UInt8.lt_iff_toNat_lt.mp (h byte List.mem_cons_self)
      rw [List.map_cons, List.flatMap_cons, ih fun byte hMem => h byte (List.mem_cons_of_mem _ hMem)]
      simp [encodeCodePoint, hByte]

/-- Units whose encoding is ASCII are the bytes of that encoding. -/
theorem eq_of_encode_ascii (units : List UInt16) (h : ∀ byte ∈ encode units, byte < 0x80) :
    units = (encode units).map UInt8.toUInt16 := by
  have hUnit (unit : UInt16) (hSmall : unit.toNat < 0x80) :
      (encodeCodePoint unit.toNat).map UInt8.toUInt16 = [unit] := by
    rw [encodeCodePoint, if_pos hSmall, List.map_singleton, List.singleton_inj, ← UInt16.toNat_inj,
      UInt8.toNat_toUInt16, UInt8.toNat_ofNat_of_lt' (by change _ < 256; omega)]
  induction units using codePoints.induct with
  | case1 => rfl
  | case2 unit =>
      simp only [encode, codePoints, List.flatMap_cons, List.flatMap_nil, List.append_nil] at h ⊢
      exact (hUnit unit (lt_of_encodeCodePoint_ascii h)).symm
  | case3 first second rest hPair ih =>
      simp only [encode, codePoints, hPair, ↓reduceIte, List.flatMap_cons] at h
      rw [Bool.and_eq_true] at hPair
      have hLarge := (combine_bounds hPair.1 hPair.2).1
      have hSmall := lt_of_encodeCodePoint_ascii fun byte hMem => h byte (List.mem_append_left _ hMem)
      omega
  | case4 first second rest hPair ih =>
      simp only [encode, codePoints, hPair, Bool.false_eq_true, ↓reduceIte, List.flatMap_cons,
        List.map_append] at h ih ⊢
      have hSmall := lt_of_encodeCodePoint_ascii fun byte hMem => h byte (List.mem_append_left _ hMem)
      rw [hUnit first hSmall, ← ih fun byte hMem => h byte (List.mem_append_right _ hMem)]
      rfl

end Wtf8
