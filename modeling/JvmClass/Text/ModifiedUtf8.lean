/-
# JvmClass.Text.ModifiedUtf8 — how string constants are stored.

A string constant holds UTF-16 code units, each in one to three bytes.  The unit 0 takes two
bytes, so that no zero byte occurs; every other unit takes the fewest bytes that hold it.  A
character beyond the basic plane is therefore a surrogate pair of six bytes.

`encode` writes this form.  `decode` is more liberal: it takes a payload that is well-formed plain
UTF-8 as a whole for what that says, and otherwise insists on the form above.  The choice is made
once for the whole payload, so the two forms cannot be mixed within one constant.
-/

namespace JvmClass.Text

/-! ## Characters as UTF-16 units -/

/-- The unit opens a surrogate pair. -/
def isHigh (u : UInt16) : Bool :=
  0xD800 ≤ u.toNat && u.toNat < 0xDC00

/-- The unit closes a surrogate pair. -/
def isLow (u : UInt16) : Bool :=
  0xDC00 ≤ u.toNat && u.toNat < 0xE000

/-- The one or two units of a character. -/
def units (c : Char) : List UInt16 :=
  if c.toNat < 0x10000 then [.ofNat c.toNat]
  else
    let v := c.toNat - 0x10000
    [.ofNat (0xD800 + v / 0x400), .ofNat (0xDC00 + v % 0x400)]

/-- The characters that a sequence of units spells.  A surrogate outside a pair spells nothing. -/
def ofUnits? : List UInt16 → Option (List Char)
  | [] => some []
  | u :: rest =>
    if isHigh u then
      match rest with
      | [] => none
      | v :: rest =>
        if isLow v then
          (ofUnits? rest).map
            (Char.ofNat (0x10000 + (u.toNat - 0xD800) * 0x400 + (v.toNat - 0xDC00)) :: ·)
        else none
    else if isLow u then none
    else (ofUnits? rest).map (Char.ofNat u.toNat :: ·)

/-! ## Units as bytes -/

/-- The one, two or three bytes of a unit. -/
def encodeUnit (u : UInt16) : List UInt8 :=
  let n := u.toNat
  if n ≠ 0 ∧ n < 0x80 then [.ofNat n]
  else if n < 0x800 then [.ofNat (0xC0 + n / 0x40), .ofNat (0x80 + n % 0x40)]
  else [.ofNat (0xE0 + n / 0x1000), .ofNat (0x80 + n / 0x40 % 0x40), .ofNat (0x80 + n % 0x40)]

/-- The byte continues a unit. -/
def isTail (b : UInt8) : Bool :=
  0x80 ≤ b.toNat && b.toNat < 0xC0

/-- The units stored in a sequence of bytes.  A unit in more bytes than it needs, a zero byte and a
lead byte of a longer sequence are no unit. -/
def decodeUnits? : List UInt8 → Option (List UInt16)
  | [] => some []
  | a :: rest =>
    if a.toNat < 0x80 then
      if a = 0 then none else (decodeUnits? rest).map (.ofNat a.toNat :: ·)
    else
      match rest with
      | [] => none
      | b :: rest =>
        if 0xC0 ≤ a.toNat ∧ a.toNat < 0xE0 then
          let n := a.toNat % 0x20 * 0x40 + b.toNat % 0x40
          if isTail b ∧ (n = 0 ∨ 0x80 ≤ n) then (decodeUnits? rest).map (.ofNat n :: ·) else none
        else
          match rest with
          | [] => none
          | c :: rest =>
            let n := a.toNat % 0x10 * 0x1000 + b.toNat % 0x40 * 0x40 + c.toNat % 0x40
            if 0xE0 ≤ a.toNat ∧ a.toNat < 0xF0 ∧ isTail b ∧ isTail c ∧ 0x800 ≤ n then
              (decodeUnits? rest).map (.ofNat n :: ·)
            else none

/-! ## Strings -/

/-- The stored form of a string. -/
def encode (s : String) : List UInt8 :=
  s.toList.flatMap fun c => (units c).flatMap encodeUnit

/-- The string that a payload in the stored form holds. -/
def decodeStrict (payload : List UInt8) : Option String :=
  (decodeUnits? payload).bind ofUnits? |>.map String.ofList

/-- The string a payload holds: plain UTF-8 if the whole payload is, else the stored form. -/
def decode (payload : List UInt8) : Option String :=
  match String.fromUTF8? ⟨payload.toArray⟩ with
  | some s => some s
  | none => decodeStrict payload

/-! ## Reading back what was written -/

theorem toNat_tail {n : Nat} (h : n < 0x40) : (UInt8.ofNat (0x80 + n)).toNat = 0x80 + n := by
  rw [UInt8.toNat_ofNat']
  omega

theorem isTail_tail {n : Nat} (h : n < 0x40) : isTail (.ofNat (0x80 + n)) = true := by
  simp only [isTail, toNat_tail h, Bool.and_eq_true, decide_eq_true_eq]
  omega

/-- The bytes of a unit are read as that unit, whatever follows them. -/
theorem decodeUnits?_encodeUnit (u : UInt16) (bytes : List UInt8) :
    decodeUnits? (encodeUnit u ++ bytes) = (decodeUnits? bytes).map (u :: ·) := by
  have bound := u.toNat_lt
  have same : UInt16.ofNat u.toNat = u := UInt16.ofNat_toNat
  simp only [encodeUnit]
  split
  · -- one byte, which is not zero
    rename_i short
    have lead : (UInt8.ofNat u.toNat).toNat = u.toNat := by
      rw [UInt8.toNat_ofNat']
      omega
    have nonzero : UInt8.ofNat u.toNat ≠ 0 := by
      rw [ne_eq, ← UInt8.toNat_inj, lead]
      exact short.1
    rw [List.cons_append, List.nil_append, decodeUnits?.eq_def]
    simp only [lead, short.2, nonzero, same, if_true, if_false]
  split
  · -- two bytes
    rename_i _ middle
    have lead : (UInt8.ofNat (0xC0 + u.toNat / 0x40)).toNat = 0xC0 + u.toNat / 0x40 := by
      rw [UInt8.toNat_ofNat']
      omega
    have low := toNat_tail (n := u.toNat % 0x40) (by omega)
    have value :
        (0xC0 + u.toNat / 0x40) % 0x20 * 0x40 + (0x80 + u.toNat % 0x40) % 0x40 = u.toNat := by
      omega
    have wide : ¬ 0xC0 + u.toNat / 0x40 < 0x80 := by omega
    have two : 0xC0 ≤ 0xC0 + u.toNat / 0x40 ∧ 0xC0 + u.toNat / 0x40 < 0xE0 := by omega
    rw [List.cons_append, List.cons_append, List.nil_append, decodeUnits?.eq_def]
    simp only [lead, low, wide, two, value, if_false, if_true, and_self, same]
    rw [if_pos ⟨isTail_tail (by omega), by omega⟩]
  · -- three bytes
    rename_i _ long
    have lead : (UInt8.ofNat (0xE0 + u.toNat / 0x1000)).toNat = 0xE0 + u.toNat / 0x1000 := by
      rw [UInt8.toNat_ofNat']
      omega
    have middle := toNat_tail (n := u.toNat / 0x40 % 0x40) (by omega)
    have low := toNat_tail (n := u.toNat % 0x40) (by omega)
    have value :
        (0xE0 + u.toNat / 0x1000) % 0x10 * 0x1000 + (0x80 + u.toNat / 0x40 % 0x40) % 0x40 * 0x40 +
          (0x80 + u.toNat % 0x40) % 0x40 = u.toNat := by
      omega
    have wide : ¬ 0xE0 + u.toNat / 0x1000 < 0x80 := by omega
    have notTwo : ¬ (0xC0 ≤ 0xE0 + u.toNat / 0x1000 ∧ 0xE0 + u.toNat / 0x1000 < 0xE0) := by omega
    rw [List.cons_append, List.cons_append, List.cons_append, List.nil_append,
      decodeUnits?.eq_def]
    simp only [lead, middle, low, wide, notTwo, value, if_false, same]
    rw [if_pos ⟨by omega, by omega, isTail_tail (by omega), isTail_tail (by omega), by omega⟩]

/-- The units of a character spell that character, whatever follows them. -/
theorem ofUnits?_units (c : Char) (us : List UInt16) :
    ofUnits? (units c ++ us) = (ofUnits? us).map (c :: ·) := by
  have valid : c.toNat < 0xD800 ∨ (0xDFFF < c.toNat ∧ c.toNat < 0x110000) := c.valid
  unfold units
  split
  · -- a unit that is no surrogate
    rename_i basic
    have unit : (UInt16.ofNat c.toNat).toNat = c.toNat := by
      rw [UInt16.toNat_ofNat']
      omega
    have notHigh : isHigh (.ofNat c.toNat) = false := by
      simp only [isHigh, unit, Bool.and_eq_false_iff, decide_eq_false_iff_not]
      omega
    have notLow : isLow (.ofNat c.toNat) = false := by
      simp only [isLow, unit, Bool.and_eq_false_iff, decide_eq_false_iff_not]
      omega
    rw [List.cons_append, List.nil_append, ofUnits?.eq_def]
    simp [unit, notHigh, notLow]
  · -- a surrogate pair
    rename_i beyond
    generalize hv : c.toNat - 0x10000 = v
    have high : (UInt16.ofNat (0xD800 + v / 0x400)).toNat = 0xD800 + v / 0x400 := by
      rw [UInt16.toNat_ofNat']
      omega
    have low : (UInt16.ofNat (0xDC00 + v % 0x400)).toNat = 0xDC00 + v % 0x400 := by
      rw [UInt16.toNat_ofNat']
      omega
    have isHigh : isHigh (.ofNat (0xD800 + v / 0x400)) = true := by
      simp only [isHigh, high, Bool.and_eq_true, decide_eq_true_eq]
      omega
    have isLow : isLow (.ofNat (0xDC00 + v % 0x400)) = true := by
      simp only [isLow, low, Bool.and_eq_true, decide_eq_true_eq]
      omega
    have value :
        0x10000 + (0xD800 + v / 0x400 - 0xD800) * 0x400 + (0xDC00 + v % 0x400 - 0xDC00) =
          c.toNat := by
      omega
    simp only [List.cons_append, List.nil_append, ofUnits?, isHigh, isLow, if_true, high, low,
      value, Char.ofNat_toNat]

theorem decodeUnits?_flatMap (us : List UInt16) :
    decodeUnits? (us.flatMap encodeUnit) = some us := by
  induction us with
  | nil => rfl
  | cons u us ih =>
    rw [List.flatMap_cons, decodeUnits?_encodeUnit, ih]
    rfl

theorem ofUnits?_flatMap (cs : List Char) : ofUnits? (cs.flatMap units) = some cs := by
  induction cs with
  | nil => rfl
  | cons c cs ih =>
    rw [List.flatMap_cons, ofUnits?_units, ih]
    rfl

/-- The stored form of a string holds that string. -/
theorem decodeStrict_encode (s : String) : decodeStrict (encode s) = some s := by
  have inUnits : encode s = (s.toList.flatMap units).flatMap encodeUnit := by
    rw [encode, List.flatMap_assoc]
  rw [decodeStrict, inUnits, decodeUnits?_flatMap, Option.bind_some, ofUnits?_flatMap,
    Option.map_some, String.ofList_toList]

end JvmClass.Text
