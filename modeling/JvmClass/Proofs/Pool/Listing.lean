import JvmClass.Proofs.Pool.Layout

/-!
# JvmClass.Proofs.Pool.Listing — the constants of a pool, found in its bytes alone.

`storedConstants` goes through the bytes of a pool without reading any constant: the number in
front of a constant tells how many bytes and how many slots it takes.  In these terms one can say
which pools are written as they were read (`Pool.emits_iff_of_stored`): those with a count other
than zero whose last constant does not reach beyond it, and whose texts are in the stored form.
-/

namespace JvmClass

open Writer

/-- The word at an offset. -/
def Bytes.word16At (bs : Bytes) (offset : Nat) : UInt16 :=
  Bytes.word16 (bs.getD offset 0) (bs.getD (offset + 1) 0)

/-- A constant as it lies in a file: the slot that it starts in, the number of its kind and the
bytes behind the number. -/
structure StoredConstant where
  slot : Nat
  number : UInt8
  contents : Bytes

/-- The constant is a `long` or a `double`. -/
def StoredConstant.IsWide (k : StoredConstant) : Prop :=
  k.number = 5 ∨ k.number = 6

/-- The payload of a string constant, whose size is in the two bytes before it, holds neither a zero
byte nor a UTF-8 sequence of four bytes. -/
def StoredConstant.HasSharedText (k : StoredConstant) : Prop :=
  k.number = 1 → ∀ b ∈ k.contents.drop 2, Text.Shared b

/-- How many bytes follow the number of a kind.  A text starts with its size. -/
def contentsSize (number : UInt8) (behind : Bytes) : Nat :=
  if number = 1 then 2 + (behind.word16At 0).toNat
  else if number ∈ [7, 8, 16, 19, 20] then 2
  else if number = 15 then 3
  else if number ∈ [5, 6] then 8
  else 4

/-- The constants that fill so many slots from a given one on. -/
def constantsFrom : (slots slot : Nat) → Bytes → List StoredConstant
  | 0, _, _ => []
  | _ + 1, _, [] => []
  | slots + 1, slot, number :: behind =>
    let size := contentsSize number behind
    let first : StoredConstant := ⟨slot, number, behind.take size⟩
    if number = 5 ∨ number = 6 then
      match slots with
      | 0 => [first]
      | slots + 1 => first :: constantsFrom slots (slot + 2) (behind.drop size)
    else first :: constantsFrom slots (slot + 1) (behind.drop size)

/-- The count that a pool starts with: one more than the number of its slots. -/
def storedCount (pool : Bytes) : Nat :=
  (pool.word16At 0).toNat

/-- The constants of a pool. -/
def storedConstants (pool : Bytes) : List StoredConstant :=
  constantsFrom (storedCount pool - 1) 1 (pool.drop 2)

/-- The bytes of a pool, and whatever is behind them, are those that the pool is written in. -/
structure PoolAsWritten (pool : Bytes) : Prop where
  counted : storedCount pool ≠ 0
  /-- No wide constant starts in the last slot. -/
  fits : ∀ k ∈ storedConstants pool, k.IsWide → k.slot + 1 ≠ storedCount pool
  shared : ∀ k ∈ storedConstants pool, k.HasSharedText

/-! ## One constant -/

theorem Bytes.word16At_zero (w : UInt16) (rest : Bytes) :
    Bytes.word16At (.ofWord16 w ++ rest) 0 = w :=
  Bytes.word16_halves w

theorem storedCount_append (count : UInt16) (rest : Bytes) :
    storedCount (.ofWord16 count ++ rest) = count.toNat := by
  rw [storedCount, Bytes.word16At_zero]

theorem storedConstants_append (count : UInt16) (rest : Bytes) :
    storedConstants (.ofWord16 count ++ rest) = constantsFrom (count.toNat - 1) 1 rest := by
  rw [storedConstants, storedCount_append]
  rfl

theorem Bytes.ofWord16_inj {v w : UInt16} : Bytes.ofWord16 v = .ofWord16 w ↔ v = w := by
  constructor
  · intro h
    rw [← Bytes.word16At_zero v [], h, Bytes.word16At_zero]
  · exact congrArg _

namespace Entry

variable {e : Entry} {tag : Tag} {contents : Bytes}

theorem contentsSize_of_stored (tagged : e.tag? = some tag) (h : e.StoredContents contents)
    (rest : Bytes) : contentsSize tag.number (contents ++ rest) = contents.length := by
  cases e with
  | unusable => cases tagged
  | utf8 text =>
      cases tagged
      obtain ⟨payload, short, -, rfl⟩ := h
      show 2 + (Bytes.word16At ((.ofWord16 (.ofNat payload.length) ++ payload) ++ rest) 0).toNat = _
      rw [List.append_assoc, Bytes.word16At_zero, UInt16.toNat_ofNat_of_lt' short,
        List.length_append, Bytes.length_ofWord16]
  | integer _ | float _ =>
      cases tagged
      rw [emits_word32_iff.mp h]
      rfl
  | long _ | double _ =>
      cases tagged
      rw [emits_word64_iff.mp h]
      rfl
  | classRef _ | string _ | methodType _ | moduleRef _ | packageRef _ =>
      cases tagged
      rw [emits_word16_iff.mp h]
      rfl
  | fieldRef _ _ | methodRef _ _ | interfaceMethodRef _ _ | nameAndType _ _ | dynamic _ _
  | invokeDynamic _ _ =>
      cases tagged
      rw [emits_writePair_iff.mp h]
      rfl
  | methodHandle _ _ =>
      cases tagged
      obtain ⟨_, _, first, second, rfl⟩ := emits_bind_iff.mp h
      rw [emits_byte_iff.mp first, emits_word16_iff.mp second]
      rfl

theorem isWide_iff_number (tagged : e.tag? = some tag) :
    e.isWide ↔ tag.number = 5 ∨ tag.number = 6 := by
  cases e <;> cases tagged <;> simp [isWide, Tag.number]

theorem asWritten_iff (tagged : e.tag? = some tag) (slot : Nat) :
    e.AsWritten (tag.number :: contents) ↔
      StoredConstant.HasSharedText ⟨slot, tag.number, contents⟩ := by
  cases e with
  | utf8 text =>
      cases tagged
      exact ⟨fun h _ => h, fun h => h rfl⟩
  | _ => cases tagged <;> exact ⟨fun _ => nofun, fun _ => trivial⟩

/-- A constant at the front is found, and the search goes on behind it. -/
theorem constantsFrom_cons (tagged : e.tag? = some tag) (h : e.StoredContents contents)
    (n slot : Nat) (rest : Bytes) :
    constantsFrom (n + 1) slot (tag.number :: contents ++ rest) =
      ⟨slot, tag.number, contents⟩ :: constantsFrom (n + 1 - e.width) (slot + e.width) rest := by
  have size := contentsSize_of_stored tagged h rest
  have front : (contents ++ rest).take contents.length = contents := List.take_left
  have back : (contents ++ rest).drop contents.length = rest := List.drop_left
  have step : constantsFrom (n + 1) slot (tag.number :: (contents ++ rest)) =
      if tag.number = 5 ∨ tag.number = 6 then
        match n with
        | 0 => [⟨slot, tag.number, contents⟩]
        | m + 1 => ⟨slot, tag.number, contents⟩ :: constantsFrom m (slot + 2) rest
      else ⟨slot, tag.number, contents⟩ :: constantsFrom n (slot + 1) rest := by
    cases n <;> simp only [constantsFrom, size, front, back]
  rw [List.cons_append, step]
  by_cases wide : e.isWide
  · rw [if_pos ((isWide_iff_number tagged).mp wide), show e.width = 2 by rw [width, if_pos wide]]
    cases n <;> rfl
  · rw [if_neg fun h => wide ((isWide_iff_number tagged).mpr h),
      show e.width = 1 by rw [width, if_neg wide], Nat.add_sub_cancel]

/-! ## All constants -/

/-- The constants end where the slots do, or one slot later just if a wide one starts in the
last. -/
theorem widths_eq_iff {entries : List Entry} {body : Bytes} (stored : Series Stored entries body)
    {n : Nat} (fills : Fills n entries) (slot : Nat) (rest : Bytes) :
    widths entries = n ↔
      ∀ k ∈ constantsFrom n slot (body ++ rest), k.IsWide → k.slot + 1 ≠ slot + n := by
  induction stored generalizing n slot with
  | nil =>
      obtain rfl : n = 0 := fills
      exact ⟨fun _ => nofun, fun _ => rfl⟩
  | @cons e entries x y hx hy ih =>
      obtain ⟨positive, fills⟩ := fills
      obtain ⟨n, rfl⟩ : ∃ m, n = m + 1 := ⟨n - 1, by omega⟩
      obtain ⟨tag, contents, tagged, hc, rfl⟩ := hx
      rw [widths_cons, List.append_assoc, constantsFrom_cons tagged hc, List.forall_mem_cons]
      have first : StoredConstant.IsWide ⟨slot, tag.number, contents⟩ ↔ e.isWide :=
        (isWide_iff_number tagged).symm
      rw [first]
      by_cases tooWide : n + 1 < e.width
      · -- a wide constant in the last slot: it takes one slot too many, and is found to be wide
        have wide : e.isWide := by
          unfold width at tooWide
          split at tooWide
          · assumption
          · omega
        have last : n = 0 := by
          rw [width, if_pos wide] at tooWide
          omega
        constructor
        · intro total
          omega
        · intro h
          exact absurd (by rw [last]) (h.1 wide)
      · -- the constant fits, and the others have to fill what it leaves
        have others := ih fills (slot + e.width)
        rw [show slot + e.width + (n + 1 - e.width) = slot + (n + 1) by omega] at others
        have notLast : e.isWide → slot + 1 ≠ slot + (n + 1) := by
          intro wide
          rw [width, if_pos wide] at tooWide
          omega
        rw [← others, and_iff_right notLast]
        omega

/-- The constants are written as they are stored just if their texts are in the stored form. -/
theorem series_emits_iff {entries : List Entry} {body : Bytes} (stored : Series Stored entries body)
    {n : Nat} (fills : Fills n entries) (slot : Nat) (rest : Bytes) :
    Series (fun e => Emits (Entry.write e)) entries body ↔
      ∀ k ∈ constantsFrom n slot (body ++ rest), k.HasSharedText := by
  induction stored generalizing n slot with
  | nil =>
      obtain rfl : n = 0 := fills
      exact ⟨fun _ => nofun, fun _ => .nil⟩
  | @cons e entries x y hx hy ih =>
      obtain ⟨positive, fills⟩ := fills
      obtain ⟨n, rfl⟩ : ∃ m, n = m + 1 := ⟨n - 1, by omega⟩
      have front : Series (fun e => Emits (Entry.write e)) (e :: entries) (x ++ y) ↔
          Emits e.write x ∧ Series (fun e => Emits (Entry.write e)) entries y :=
        Entry.reads.series_cons_iff hx fun _ h => stored_of_emits (ne_unusable_of_stored hx) h
      -- the bytes are split where they were read, so each constant is on its own
      rw [front, emits_iff_of_stored hx, ih fills (slot + e.width)]
      obtain ⟨tag, contents, tagged, hc, rfl⟩ := hx
      rw [List.append_assoc, constantsFrom_cons tagged hc, List.forall_mem_cons,
        asWritten_iff tagged slot]

end Entry

/-- A pool is written in the bytes that it was read from just if they are as they would be
written. -/
theorem Pool.emits_iff_of_stored {p : Pool} {bs : Bytes} (h : p.Stored bs) (rest : Bytes) :
    Emits p.write bs ↔ PoolAsWritten (bs ++ rest) := by
  obtain ⟨size, entries, body, rfl, fills, stored, rfl⟩ := h
  rw [List.append_assoc]
  have count := storedCount_append size (body ++ rest)
  have constants := storedConstants_append size (body ++ rest)
  -- the count and the texts are settled separately
  have total := Entry.widths_eq_iff stored fills 1 rest
  have texts := Entry.series_emits_iff stored fills 1 rest
  have header : Emits (ofEntries entries).write (.ofWord16 size ++ body) ↔
      size.toNat = Entry.widths entries + 1 ∧
        Series (fun e => Emits (Entry.write e)) entries body := by
    rw [emits_write_iff]
    constructor
    · intro taken
      rcases taken with ⟨small, body', written, same⟩
      obtain ⟨sizes, rfl⟩ := List.append_inj same rfl
      rw [Bytes.ofWord16_inj] at sizes
      exact ⟨by rw [sizes, UInt16.toNat_ofNat_of_lt' small], written⟩
    · rintro ⟨sizes, written⟩
      refine ⟨?_, body, written, ?_⟩
      · rw [← sizes]
        exact size.toNat_lt
      · rw [← sizes, UInt16.ofNat_toNat]
  rw [header, texts]
  constructor
  · rintro ⟨sizes, shared⟩
    have nonzero : size.toNat ≠ 0 := by omega
    rw [show 1 + (size.toNat - 1) = size.toNat by omega] at total
    refine ⟨by rwa [count], ?_, by rwa [constants]⟩
    rw [constants, count]
    exact total.mp (by omega)
  · rintro ⟨counted, fits, shared⟩
    rw [count] at counted
    rw [show 1 + (size.toNat - 1) = size.toNat by omega] at total
    rw [constants, count] at fits
    have filled := total.mpr fits
    exact ⟨by omega, constants ▸ shared⟩

end JvmClass
