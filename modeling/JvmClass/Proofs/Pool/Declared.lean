import JvmClass.Proofs.Pool.Growth
import JvmClass.Proofs.Pool.Listing

/-!
# JvmClass.Proofs.Pool.Declared — the size that a pool declares and the size that it has.

The two words in front of a pool declare its size, and constants are read until their slots fill it.
The last constant may take one slot too many: it is wide and starts in the last slot declared.  Its
mark is put behind the declared slots then, so that the pool is one larger than it declares, and
after 65535 it is too large to be stored.  In all other pools the sizes agree.
-/

namespace JvmClass

/-- The last constant of the pool is wide and starts in the last slot that is declared. -/
def Overhangs (pool : Bytes) : Prop :=
  ∃ k ∈ storedConstants pool, k.IsWide ∧ k.slot + 1 = storedCount pool

instance (k : StoredConstant) : Decidable k.IsWide :=
  inferInstanceAs (Decidable (_ ∨ _))

instance (pool : Bytes) : Decidable (Overhangs pool) :=
  inferInstanceAs (Decidable (∃ k ∈ storedConstants pool, k.IsWide ∧ k.slot + 1 = storedCount pool))

/-- If the entries take one slot too many, then the last one is wide. -/
theorem Entry.exists_last_of_fills {n : Nat} {entries : List Entry} (fills : Fills n entries)
    (beyond : widths entries = n + 1) : ∃ front e, entries = front ++ [e] ∧ e.isWide := by
  induction entries generalizing n with
  | nil => cases beyond
  | cons e entries ih =>
      obtain ⟨positive, rest⟩ := fills
      rw [widths_cons] at beyond
      cases entries with
      | nil =>
          have only : e.width = 2 := by
            have none : n - e.width = 0 := rest
            have := e.width_le
            rw [show widths [] = 0 from rfl] at beyond
            omega
          refine ⟨[], e, rfl, ?_⟩
          unfold width at only
          split at only
          · assumption
          · cases only
      | cons f entries =>
          have more : 0 < n - e.width := rest.1
          obtain ⟨front, last, same, wide⟩ := ih rest (by omega)
          exact ⟨e :: front, last, by rw [same, List.cons_append], wide⟩

namespace Pool

variable {p : Pool} {bs : Bytes}

/-- The last slot of a pool that is laid out with a wide constant at the end. -/
theorem getElem?_ofEntries_wide {e : Entry} (wide : e.isWide) (front : List Entry) :
    (ofEntries (front ++ [e])).slots.toList[(ofEntries (front ++ [e])).size - 2]? =
      some .unusable := by
  have slots : (ofEntries (front ++ [e])).slots.toList =
      front.flatMap Entry.slots ++ [e, .unusable] := by
    show (front ++ [e]).flatMap Entry.slots = _
    rw [List.flatMap_append, List.flatMap_singleton, Entry.slots_of_wide wide]
  rw [size, ← Array.length_toList, slots, List.length_append]
  simp

/-- A pool overhangs just if its constants do not end where the declared slots do. -/
theorem overhangs_iff {size : UInt16} {entries : List Entry} {body : Bytes}
    (fills : Entry.Fills (size.toNat - 1) entries) (stored : Series Entry.Stored entries body)
    (rest : Bytes) :
    Overhangs (.ofWord16 size ++ (body ++ rest)) ↔ Entry.widths entries ≠ size.toNat - 1 := by
  unfold Overhangs
  rw [storedConstants_append, storedCount_append, Ne, Entry.widths_eq_iff stored fills 1 rest]
  simp only [Classical.not_forall, Classical.not_not, exists_prop]
  -- a pool that declares no size has no constants either
  by_cases none : size.toNat = 0
  · rw [none]
    simp [constantsFrom]
  · rw [show 1 + (size.toNat - 1) = size.toNat by omega]

/-- The size that a pool declares and the size that it has. -/
theorem size_of_stored (h : p.Stored bs) (rest : Bytes) :
    (¬ Overhangs (bs ++ rest) → p.size = max (storedCount (bs ++ rest)) 1) ∧
      (Overhangs (bs ++ rest) → 1 < storedCount (bs ++ rest) ∧
        p.size = storedCount (bs ++ rest) + 1 ∧
        p.slots.toList[p.size - 2]? = some .unusable) := by
  obtain ⟨size, entries, body, rfl, fills, stored, rfl⟩ := h
  have whole := Entry.widths_of_fills fills
  rw [List.append_assoc, overhangs_iff fills stored rest, storedCount_append]
  constructor
  · intro within
    rw [size_ofEntries, Classical.not_not.mp within]
    omega
  · intro beyond
    have large : 0 < size.toNat - 1 ∧ Entry.widths entries = size.toNat - 1 + 1 := by omega
    obtain ⟨front, e, rfl, wide⟩ := Entry.exists_last_of_fills fills large.2
    refine ⟨by omega, ?_, getElem?_ofEntries_wide wide front⟩
    rw [size_ofEntries, large.2]
    omega

/-- Where a pool that was read does not overhang, its size is the one that it declares, with 1 for a
declared size of 0; then no number from the declared size on stands for anything, and the size can
be stored.  Where it overhangs, the size is one larger, and the number that is the declared size
stands for the mark behind the last constant. -/
theorem size_of_read {input rest : Bytes} (run : Pool.read input = .ok p rest) :
    (¬ Overhangs input → p.size = max (storedCount input) 1 ∧ p.size ≤ maxSize ∧
      ∀ index : UInt16, storedCount input ≤ index.toNat → p.get? index = none) ∧
    (Overhangs input → 1 < storedCount input ∧ p.size = storedCount input + 1 ∧
      p.get? (.ofNat (storedCount input)) = some .unusable) := by
  obtain ⟨used, stored, same⟩ := Pool.reads.sound run
  obtain rfl : input = used ++ rest := same
  obtain ⟨agree, beyond⟩ := size_of_stored stored rest
  have word : storedCount (used ++ rest) < 0x10000 := (Bytes.word16At _ 0).toNat_lt
  constructor
  · intro within
    have size := agree within
    refine ⟨size, ?_, fun index outside => ?_⟩
    · show p.size ≤ 65535
      omega
    · rw [get?_eq_none_iff, ← UInt16.toNat_inj]
      show index.toNat = 0 ∨ _
      omega
  · intro overhanging
    obtain ⟨large, size, mark⟩ := beyond overhanging
    have number := UInt16.toNat_ofNat_of_lt' word
    have nonzero : UInt16.ofNat (storedCount (used ++ rest)) ≠ 0 := by
      rw [Ne, ← UInt16.toNat_inj, number]
      show ¬ storedCount (used ++ rest) = 0
      omega
    refine ⟨large, size, ?_⟩
    rw [get?_eq, if_neg nonzero, number, ← mark, size]
    rfl

/-- A class and a long in the three slots that are declared, and bytes that do not belong to the
pool. -/
theorem size_of_read_fitting :
    ∃ p, Pool.read [0x00, 0x04, 0x07, 0x00, 0x02, 0x05, 0, 0, 0, 0, 0, 0, 0, 7, 0x01, 0x00] =
        .ok p [0x01, 0x00] ∧ p.size = 4 ∧ p.get? 3 = some .unusable ∧ p.get? 4 = none := by
  have run : Pool.read [0x00, 0x04, 0x07, 0x00, 0x02, 0x05, 0, 0, 0, 0, 0, 0, 0, 7, 0x01, 0x00] =
      .ok ⟨#[.classRef 2, .long 7, .unusable]⟩ [0x01, 0x00] := rfl
  obtain ⟨size, -, outside⟩ := (size_of_read run).1 (by decide)
  exact ⟨_, run, size, rfl, outside 4 (by decide)⟩

/-- A long in the only slot that is declared: the pool that is read is larger than it declares, and
the declared size is the number of a slot. -/
theorem size_of_read_overhanging :
    ∃ p, Pool.read [0x00, 0x02, 0x05, 0, 0, 0, 0, 0, 0, 0, 7] = .ok p [] ∧
      storedCount [0x00, 0x02, 0x05, 0, 0, 0, 0, 0, 0, 0, 7] = 2 ∧
      p.size = 3 ∧ p.get? 2 = some .unusable :=
  ⟨_, rfl, rfl, rfl, rfl⟩

end Pool

end JvmClass
