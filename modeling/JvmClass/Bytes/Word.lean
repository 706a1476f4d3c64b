/-
# JvmClass.Bytes.Word — big-endian words.

Every number in a class file is stored with its most significant byte first.  `ofWord16`,
`ofWord32` and `ofWord64` give the bytes of a word; the word is read back by `word16` and its
companions, which put two halves together.
-/

namespace JvmClass

/-- A stretch of a class file. -/
abbrev Bytes := List UInt8

namespace Bytes

/-- The two bytes of a word. -/
def ofWord16 (w : UInt16) : Bytes :=
  [.ofNat (w.toNat / 0x100), .ofNat (w.toNat % 0x100)]

/-- The four bytes of a word. -/
def ofWord32 (w : UInt32) : Bytes :=
  ofWord16 (.ofNat (w.toNat / 0x10000)) ++ ofWord16 (.ofNat (w.toNat % 0x10000))

/-- The eight bytes of a word. -/
def ofWord64 (w : UInt64) : Bytes :=
  ofWord32 (.ofNat (w.toNat / 0x100000000)) ++ ofWord32 (.ofNat (w.toNat % 0x100000000))

/-- The word of two bytes. -/
def word16 (high low : UInt8) : UInt16 :=
  .ofNat (high.toNat * 0x100 + low.toNat)

/-- The word of two halves. -/
def word32 (high low : UInt16) : UInt32 :=
  .ofNat (high.toNat * 0x10000 + low.toNat)

/-- The word of two halves. -/
def word64 (high low : UInt32) : UInt64 :=
  .ofNat (high.toNat * 0x100000000 + low.toNat)

/-! ## Words and their bytes -/

theorem toNat_word16 (high low : UInt8) :
    (word16 high low).toNat = high.toNat * 0x100 + low.toNat := by
  have := high.toNat_lt
  have := low.toNat_lt
  rw [word16, UInt16.toNat_ofNat']
  omega

theorem toNat_word32 (high low : UInt16) :
    (word32 high low).toNat = high.toNat * 0x10000 + low.toNat := by
  have := high.toNat_lt
  have := low.toNat_lt
  rw [word32, UInt32.toNat_ofNat']
  omega

theorem toNat_word64 (high low : UInt32) :
    (word64 high low).toNat = high.toNat * 0x100000000 + low.toNat := by
  have := high.toNat_lt
  have := low.toNat_lt
  rw [word64, UInt64.toNat_ofNat']
  omega

/-- The bytes of a word are those it was put together from. -/
theorem ofWord16_word16 (high low : UInt8) : ofWord16 (word16 high low) = [high, low] := by
  have := high.toNat_lt
  have := low.toNat_lt
  simp only [ofWord16, toNat_word16, List.cons.injEq, and_true]
  constructor <;> rw [← UInt8.toNat_inj, UInt8.toNat_ofNat'] <;> omega

theorem ofWord32_word32 (high low : UInt16) :
    ofWord32 (word32 high low) = ofWord16 high ++ ofWord16 low := by
  have := high.toNat_lt
  have := low.toNat_lt
  rw [ofWord32, toNat_word32]
  congr 2 <;> rw [← UInt16.toNat_inj, UInt16.toNat_ofNat'] <;> omega

theorem ofWord64_word64 (high low : UInt32) :
    ofWord64 (word64 high low) = ofWord32 high ++ ofWord32 low := by
  have := high.toNat_lt
  have := low.toNat_lt
  rw [ofWord64, toNat_word64]
  congr 2 <;> rw [← UInt32.toNat_inj, UInt32.toNat_ofNat'] <;> omega

/-- A word is put together again from its halves. -/
theorem word16_halves (w : UInt16) :
    word16 (.ofNat (w.toNat / 0x100)) (.ofNat (w.toNat % 0x100)) = w := by
  have := w.toNat_lt
  rw [← UInt16.toNat_inj, toNat_word16, UInt8.toNat_ofNat', UInt8.toNat_ofNat']
  omega

theorem word32_halves (w : UInt32) :
    word32 (.ofNat (w.toNat / 0x10000)) (.ofNat (w.toNat % 0x10000)) = w := by
  have := w.toNat_lt
  rw [← UInt32.toNat_inj, toNat_word32, UInt16.toNat_ofNat', UInt16.toNat_ofNat']
  omega

theorem word64_halves (w : UInt64) :
    word64 (.ofNat (w.toNat / 0x100000000)) (.ofNat (w.toNat % 0x100000000)) = w := by
  have := w.toNat_lt
  rw [← UInt64.toNat_inj, toNat_word64, UInt32.toNat_ofNat', UInt32.toNat_ofNat']
  omega

/-! ## Sizes -/

@[simp] theorem length_ofWord16 (w : UInt16) : (ofWord16 w).length = 2 := rfl

@[simp] theorem length_ofWord32 (w : UInt32) : (ofWord32 w).length = 4 := rfl

/-- Splits off the first `n` bytes, if there are that many.  It looks at no byte beyond them. -/
def splitExact (n : Nat) (bytes : Bytes) : Option (Bytes × Bytes) :=
  go n bytes []
where
  /-- Moves `n` bytes onto `front`, which holds those already taken, last first. -/
  go : Nat → Bytes → Bytes → Option (Bytes × Bytes)
    | 0, rest, front => some (front.reverse, rest)
    | _ + 1, [], _ => none
    | n + 1, b :: rest, front => go n rest (b :: front)

theorem splitExact_go_eq_some_iff {n : Nat} {bytes front taken rest : Bytes} :
    splitExact.go n bytes front = some (taken, rest) ↔
      ∃ middle, taken = front.reverse ++ middle ∧ bytes = middle ++ rest ∧ middle.length = n := by
  induction n generalizing bytes front with
  | zero =>
    simp only [splitExact.go, Option.some.injEq, Prod.mk.injEq, List.length_eq_zero_iff]
    constructor
    · rintro ⟨rfl, rfl⟩
      exact ⟨[], by simp, by simp, rfl⟩
    · rintro ⟨_, rfl, rfl, rfl⟩
      exact ⟨by simp, by simp⟩
  | succ n ih =>
    cases bytes with
    | nil =>
      simp only [splitExact.go, reduceCtorEq, false_iff, not_exists, not_and]
      intro middle _ h
      cases middle with
      | nil => simp
      | cons b middle => simp at h
    | cons b bytes =>
      rw [splitExact.go, ih]
      constructor
      · rintro ⟨middle, rfl, rfl, rfl⟩
        exact ⟨b :: middle, by simp, by simp, by simp⟩
      · rintro ⟨middle, rfl, h, hl⟩
        cases middle with
        | nil => simp at hl
        | cons c middle =>
          simp only [List.cons_append, List.cons.injEq] at h
          obtain ⟨rfl, rfl⟩ := h
          exact ⟨middle, by simp, rfl, by simpa using hl⟩

/-- The two parts make up the whole, and the first has the size asked for. -/
theorem splitExact_eq_some_iff {n : Nat} {bytes taken rest : Bytes} :
    splitExact n bytes = some (taken, rest) ↔ bytes = taken ++ rest ∧ taken.length = n := by
  rw [splitExact, splitExact_go_eq_some_iff]
  constructor
  · rintro ⟨middle, rfl, rfl, hl⟩
    exact ⟨by simp, by simpa using hl⟩
  · rintro ⟨rfl, hl⟩
    exact ⟨taken, by simp, rfl, hl⟩

end Bytes

end JvmClass
