import JvmClass.Text.ModifiedUtf8

/-!
# JvmClass.Proofs.Text.Payload — which payloads hold a string, and which of them are stored again.

A string constant may hold its text in two ways: as plain UTF-8, or in the stored form that `encode`
writes.  `decode_eq_some_iff` says that these are the only payloads that hold a given string.  The
two ways agree on most strings.  They part where a zero byte or a sequence of four bytes occurs,
which the stored form never contains; so a payload is the stored form of its string exactly when it
is free of both (`eq_encode_iff_of_decode`).
-/

namespace JvmClass.Text

/-! ## The stored form, read strictly -/

theorem ofNat_eq_of_toNat {b : UInt8} {n : Nat} (h : n = b.toNat) : UInt8.ofNat n = b := by
  rw [h, UInt8.ofNat_toNat]

theorem isTail_iff {b : UInt8} : isTail b = true ↔ 0x80 ≤ b.toNat ∧ b.toNat < 0xC0 := by
  simp only [isTail, Bool.and_eq_true, decide_eq_true_eq]

/-- A byte below 128 other than zero stands for itself. -/
theorem encodeUnit_one {a : UInt8} (small : a.toNat < 0x80) (nonzero : a ≠ 0) :
    encodeUnit (.ofNat a.toNat) = [a] := by
  have value : (UInt16.ofNat a.toNat).toNat = a.toNat := by
    rw [UInt16.toNat_ofNat']
    omega
  have positive : a.toNat ≠ 0 := fun h => nonzero (by rw [← UInt8.toNat_inj, h]; rfl)
  rw [encodeUnit, value, if_pos ⟨positive, small⟩, UInt8.ofNat_toNat]

theorem encodeUnit_two {a b : UInt8} (lead : 0xC0 ≤ a.toNat ∧ a.toNat < 0xE0)
    (tail : isTail b = true)
    (least : a.toNat % 0x20 * 0x40 + b.toNat % 0x40 = 0 ∨
      0x80 ≤ a.toNat % 0x20 * 0x40 + b.toNat % 0x40) :
    encodeUnit (.ofNat (a.toNat % 0x20 * 0x40 + b.toNat % 0x40)) = [a, b] := by
  rw [isTail_iff] at tail
  generalize hn : a.toNat % 0x20 * 0x40 + b.toNat % 0x40 = n at least ⊢
  have value : (UInt16.ofNat n).toNat = n := by
    rw [UInt16.toNat_ofNat']
    omega
  -- `least` leaves zero and the values that need two bytes, so no other form is chosen
  have notOne : ¬ (n ≠ 0 ∧ n < 0x80) := by omega
  have notThree : n < 0x800 := by omega
  rw [encodeUnit, value, if_neg notOne, if_pos notThree,
    ofNat_eq_of_toNat (b := a) (by omega), ofNat_eq_of_toNat (b := b) (by omega)]

theorem encodeUnit_three {a b c : UInt8} (lead : 0xE0 ≤ a.toNat ∧ a.toNat < 0xF0)
    (second : isTail b = true) (third : isTail c = true)
    (least : 0x800 ≤ a.toNat % 0x10 * 0x1000 + b.toNat % 0x40 * 0x40 + c.toNat % 0x40) :
    encodeUnit (.ofNat (a.toNat % 0x10 * 0x1000 + b.toNat % 0x40 * 0x40 + c.toNat % 0x40)) =
      [a, b, c] := by
  rw [isTail_iff] at second third
  generalize hn : a.toNat % 0x10 * 0x1000 + b.toNat % 0x40 * 0x40 + c.toNat % 0x40 = n at least ⊢
  have value : (UInt16.ofNat n).toNat = n := by
    rw [UInt16.toNat_ofNat']
    omega
  -- a value of at least 0x800 has no shorter form
  have notOne : ¬ (n ≠ 0 ∧ n < 0x80) := by omega
  have notTwo : ¬ n < 0x800 := by omega
  rw [encodeUnit, value, if_neg notOne, if_neg notTwo,
    ofNat_eq_of_toNat (b := a) (by omega), ofNat_eq_of_toNat (b := b) (by omega),
    ofNat_eq_of_toNat (b := c) (by omega)]

/-- Units are read only from the bytes that stand for them. -/
theorem eq_flatMap_of_decodeUnits? {bytes : List UInt8} {us : List UInt16}
    (h : decodeUnits? bytes = some us) : bytes = us.flatMap encodeUnit := by
  -- one case for each way in which the reader can go on or give up
  fun_induction decodeUnits? bytes generalizing us with
  | case1 =>
      cases h
      rfl
  | case2 | case4 | case6 | case7 | case9 => cases h
  | case3 a rest small nonzero ih =>
      obtain ⟨vs, hvs, rfl⟩ := Option.map_eq_some_iff.mp h
      rw [List.flatMap_cons, encodeUnit_one small nonzero, ← ih hvs]
      rfl
  | case5 a small b rest lead n two =>
      rename_i ih
      obtain ⟨vs, hvs, rfl⟩ := Option.map_eq_some_iff.mp h
      rw [List.flatMap_cons, encodeUnit_two lead two.1 two.2, ← ih hvs]
      rfl
  | case8 a small b lead c rest n three =>
      rename_i ih
      obtain ⟨vs, hvs, rfl⟩ := Option.map_eq_some_iff.mp h
      obtain ⟨low, high, second, third, least⟩ := three
      rw [List.flatMap_cons, encodeUnit_three ⟨low, high⟩ second third least, ← ih hvs]
      rfl

theorem toNat_ofNat_of_valid {n : Nat} (valid : n.isValidChar) : (Char.ofNat n).toNat = n := by
  rw [Char.ofNat, dif_pos valid]
  rfl

/-- A unit that is no surrogate is the one unit of its character. -/
theorem units_basic {u : UInt16} (notHigh : isHigh u = false) (notLow : isLow u = false) :
    units (.ofNat u.toNat) = [u] := by
  have bound := u.toNat_lt
  simp only [isHigh, isLow, Bool.and_eq_false_iff, decide_eq_false_iff_not] at notHigh notLow
  -- what is no surrogate is a character
  have valid : u.toNat.isValidChar := by
    rw [Nat.isValidChar]
    omega
  have value := toNat_ofNat_of_valid valid
  rw [units, value, if_pos (by omega), UInt16.ofNat_toNat]

/-- A surrogate pair is the two units of its character. -/
theorem units_pair {u v : UInt16} (high : isHigh u = true) (low : isLow v = true) :
    units (.ofNat (0x10000 + (u.toNat - 0xD800) * 0x400 + (v.toNat - 0xDC00))) = [u, v] := by
  simp only [isHigh, isLow, Bool.and_eq_true, decide_eq_true_eq] at high low
  generalize hn : 0x10000 + (u.toNat - 0xD800) * 0x400 + (v.toNat - 0xDC00) = n
  have valid : n.isValidChar := by
    rw [Nat.isValidChar]
    omega
  have value := toNat_ofNat_of_valid valid
  -- the upper ten bits are those of the first unit, the lower ten those of the second
  have first : UInt16.ofNat (0xD800 + (n - 0x10000) / 0x400) = u := by
    rw [show 0xD800 + (n - 0x10000) / 0x400 = u.toNat by omega, UInt16.ofNat_toNat]
  have second : UInt16.ofNat (0xDC00 + (n - 0x10000) % 0x400) = v := by
    rw [show 0xDC00 + (n - 0x10000) % 0x400 = v.toNat by omega, UInt16.ofNat_toNat]
  have beyond : ¬ n < 0x10000 := by omega
  simp only [units, value, if_neg beyond, first, second]

/-- Characters are spelled only by their units. -/
theorem eq_flatMap_of_ofUnits? {us : List UInt16} {cs : List Char} (h : ofUnits? us = some cs) :
    us = cs.flatMap units := by
  -- one case for each way in which units can follow one another
  fun_induction ofUnits? us generalizing cs with
  | case1 =>
      cases h
      rfl
  | case2 | case4 | case5 => cases h
  | case3 u high v rest low ih =>
      obtain ⟨ds, hds, rfl⟩ := Option.map_eq_some_iff.mp h
      rw [List.flatMap_cons, units_pair high low, ← ih hds]
      rfl
  | case6 u rest high low ih =>
      obtain ⟨ds, hds, rfl⟩ := Option.map_eq_some_iff.mp h
      rw [List.flatMap_cons, units_basic (by simpa using high) (by simpa using low), ← ih hds]
      rfl

/-- The stored form is all that is read strictly. -/
theorem decodeStrict_eq_some_iff {payload : List UInt8} {s : String} :
    decodeStrict payload = some s ↔ payload = encode s := by
  constructor
  · intro h
    obtain ⟨cs, hcs, rfl⟩ := Option.map_eq_some_iff.mp h
    obtain ⟨us, hus, hcs⟩ := Option.bind_eq_some_iff.mp hcs
    rw [eq_flatMap_of_decodeUnits? hus, eq_flatMap_of_ofUnits? hcs, List.flatMap_assoc, encode,
      String.toList_ofList]
  · rintro rfl
    exact decodeStrict_encode s

/-! ## Plain UTF-8 -/

/-- The UTF-8 bytes of a string. -/
def utf8 (s : String) : List UInt8 :=
  s.toList.flatMap String.utf8EncodeChar

theorem fromUTF8?_eq_some_iff {payload : List UInt8} {s : String} :
    String.fromUTF8? ⟨payload.toArray⟩ = some s ↔ payload = utf8 s := by
  have bytes : s.toByteArray = (utf8 s).toByteArray := by
    show s.toByteArray = s.toList.utf8Encode
    rw [← String.toByteArray_ofList, String.ofList_toList]
  have same : payload = utf8 s ↔ (⟨payload.toArray⟩ : ByteArray) = s.toByteArray := by
    rw [bytes, ByteArray.ext_iff, List.data_toByteArray]
    constructor
    · rintro rfl
      rfl
    · intro h
      simpa using h
  rw [same, String.fromUTF8?]
  split
  · rw [Option.some.injEq, ← String.toByteArray_inj]
    rfl
  · rename_i invalid
    constructor
    · intro h
      cases h
    · intro h
      exact absurd (h ▸ s.isValidUTF8) invalid

/-! ## Where the two ways part -/

/-- The byte is neither zero nor the first of a UTF-8 sequence of four bytes. -/
def Shared (b : UInt8) : Prop :=
  b ≠ 0 ∧ ¬ (0xF0 ≤ b.toNat ∧ b.toNat ≤ 0xF4)

theorem shared_of_lt {n : Nat} (positive : 0 < n) (small : n < 0xF0) : Shared (.ofNat n) := by
  have value : (UInt8.ofNat n).toNat = n := by
    rw [UInt8.toNat_ofNat']
    omega
  refine ⟨fun h => ?_, by omega⟩
  rw [h] at value
  exact absurd value (Nat.ne_of_lt positive)

/-- Nothing that is stored holds a zero byte or a sequence of four. -/
theorem shared_of_mem_encodeUnit {u : UInt16} {b : UInt8} (h : b ∈ encodeUnit u) : Shared b := by
  have bound := u.toNat_lt
  simp only [encodeUnit] at h
  split at h
  · rename_i one
    rw [List.mem_singleton] at h
    rw [h]
    exact shared_of_lt (by omega) (by omega)
  split at h
  · simp only [List.mem_cons, List.not_mem_nil, or_false] at h
    rcases h with rfl | rfl <;> exact shared_of_lt (by omega) (by omega)
  · simp only [List.mem_cons, List.not_mem_nil, or_false] at h
    rcases h with rfl | rfl | rfl <;> exact shared_of_lt (by omega) (by omega)

theorem shared_of_mem_encode {s : String} {b : UInt8} (h : b ∈ encode s) : Shared b := by
  obtain ⟨c, -, hc⟩ := List.mem_flatMap.mp h
  obtain ⟨u, -, hu⟩ := List.mem_flatMap.mp hc
  exact shared_of_mem_encodeUnit hu

/-- A character of three UTF-8 bytes at most, other than zero, is stored in its UTF-8 bytes. -/
theorem encode_basic {c : Char} (positive : c.toNat ≠ 0) (basic : c.toNat < 0x10000) :
    (units c).flatMap encodeUnit = String.utf8EncodeChar c := by
  have unit : (UInt16.ofNat c.toNat).toNat = c.toNat := by
    rw [UInt16.toNat_ofNat']
    omega
  rw [units, if_pos basic, List.flatMap_singleton, encodeUnit, unit, String.utf8EncodeChar,
    show c.val.toNat = c.toNat from rfl]
  split
  · rename_i one
    rw [if_pos (by omega)]
  split
  · rename_i notOne two
    have lead : c.toNat / 64 % 0x20 + 0xC0 = 0xC0 + c.toNat / 0x40 := by omega
    rw [if_neg (by omega), if_pos (by omega), lead, Nat.add_comm (c.toNat % 0x40)]
  · rename_i notOne notTwo
    have lead : c.toNat / 4096 % 0x10 + 0xE0 = 0xE0 + c.toNat / 0x1000 := by omega
    rw [if_neg (by omega), if_neg (by omega), if_pos (by omega), lead,
      Nat.add_comm (c.toNat / 64 % 0x40), Nat.add_comm (c.toNat % 0x40)]

/-- A character beyond the basic plane takes four UTF-8 bytes. -/
theorem utf8EncodeChar_of_beyond {c : Char} (beyond : 0x10000 ≤ c.toNat) :
    String.utf8EncodeChar c =
      [.ofNat (c.toNat / 0x40000 % 8 + 0xF0), .ofNat (c.toNat / 0x1000 % 0x40 + 0x80),
        .ofNat (c.toNat / 0x40 % 0x40 + 0x80), .ofNat (c.toNat % 0x40 + 0x80)] := by
  rw [String.utf8EncodeChar, show c.val.toNat = c.toNat from rfl]
  rw [if_neg (by omega), if_neg (by omega), if_neg (by omega)]

theorem encode_character {c : Char} (h : ∀ b ∈ String.utf8EncodeChar c, Shared b) :
    (units c).flatMap encodeUnit = String.utf8EncodeChar c := by
  have valid : c.toNat < 0xD800 ∨ (0xDFFF < c.toNat ∧ c.toNat < 0x110000) := c.valid
  have positive : c.toNat ≠ 0 := by
    intro zero
    have lead : String.utf8EncodeChar c = [0] := by
      simp only [String.utf8EncodeChar, show c.val.toNat = 0 from zero]
      rfl
    exact (h 0 (by rw [lead]; exact List.mem_singleton_self 0)).1 rfl
  have basic : c.toNat < 0x10000 := by
    refine Nat.lt_of_not_le fun beyond => ?_
    -- the lead byte of a character beyond the basic plane is 0xF0 plus its topmost three bits
    rw [utf8EncodeChar_of_beyond beyond] at h
    apply (h _ List.mem_cons_self).2
    rw [UInt8.toNat_ofNat']
    omega
  exact encode_basic positive basic

theorem encode_eq_utf8 {s : String} (h : ∀ b ∈ utf8 s, Shared b) : encode s = utf8 s := by
  rw [encode, utf8, List.flatMap_def, List.flatMap_def]
  congr 1
  apply List.map_congr_left
  intro c hc
  exact encode_character fun b hb => h b (List.mem_flatMap.mpr ⟨c, hc, hb⟩)

/-! ## Reading either way -/

/-- What was stored is read back: plain UTF-8 cannot take it for another string. -/
theorem decode_encode (s : String) : decode (encode s) = some s := by
  unfold decode
  cases plain : String.fromUTF8? ⟨(encode s).toArray⟩ with
  | none => exact decodeStrict_encode s
  | some t =>
      rw [fromUTF8?_eq_some_iff] at plain
      -- read as plain UTF-8, the stored form holds a string that is stored in the same bytes
      have shared : ∀ b ∈ utf8 t, Shared b := by
        intro b hb
        rw [← plain] at hb
        exact shared_of_mem_encode hb
      have same : encode t = encode s := by rw [encode_eq_utf8 shared, plain]
      have back := decodeStrict_encode t
      rw [same, decodeStrict_encode s] at back
      exact back.symm

/-- A payload holds a string just if it is its UTF-8 or its stored form. -/
theorem decode_eq_some_iff {payload : List UInt8} {s : String} :
    decode payload = some s ↔ payload = utf8 s ∨ payload = encode s := by
  constructor
  · intro h
    unfold decode at h
    split at h
    · rename_i t plain
      cases h
      exact .inl (fromUTF8?_eq_some_iff.mp plain)
    · exact .inr (decodeStrict_eq_some_iff.mp h)
  · rintro (rfl | rfl)
    · simp only [decode, fromUTF8?_eq_some_iff.mpr rfl]
    · exact decode_encode s

/-- A payload is what its string is stored as just if all its bytes are shared. -/
theorem eq_encode_iff_of_decode {payload : List UInt8} {s : String}
    (h : decode payload = some s) : payload = encode s ↔ ∀ b ∈ payload, Shared b := by
  constructor
  · rintro rfl b hb
    exact shared_of_mem_encode hb
  · intro shared
    rcases decode_eq_some_iff.mp h with rfl | rfl
    · exact (encode_eq_utf8 shared).symm
    · rfl

end JvmClass.Text
