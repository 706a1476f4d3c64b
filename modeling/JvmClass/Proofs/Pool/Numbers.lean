import JvmClass.Proofs.Pool.Growth

/-!
# JvmClass.Proofs.Pool.Numbers — the numbers that constants are pushed under.

A constant is numbered with the size that the pool has before it.  Numbers are words of two bytes,
and sizes are not; that no size is cut down to a word is due to the limit on sizes, which every
pool keeps that calls of `push` have made, whatever these calls were and however many of them were
refused.

Later calls put constants behind the one that was numbered.  So its number goes on standing for it,
and the numbers that they give are greater.
-/

namespace JvmClass

namespace Entry

/-- An entry stands in the first of its slots. -/
theorem getElem?_slots_zero (e : Entry) : e.slots[0]? = some e := by
  unfold slots
  split <;> rfl

theorem widths_replicate (n : Nat) (e : Entry) :
    widths (List.replicate n e) = n * e.width := by
  induction n with
  | zero => rw [Nat.zero_mul]; rfl
  | succ n ih =>
      rw [List.replicate_succ, widths_cons, ih, Nat.succ_mul, Nat.add_comm]

end Entry

namespace Pool

variable {p q : Pool} {e : Entry} {i : UInt16} {o : Overflow}

/-! ## One call -/

theorem size_append_slots (p : Pool) (e : Entry) :
    size ⟨p.slots ++ e.slots⟩ = p.size + e.width := by
  rw [size, size, ← Array.length_toList, Array.toList_appendList, List.length_append,
    Array.length_toList, Entry.length_slots]
  omega

/-- The number is the size of the pool, which fits a word since there was room behind it. -/
theorem toNat_of_push (h : p.push e = .ok (i, q)) : i.toNat = p.size := by
  obtain ⟨room, rfl, -⟩ := push_eq_ok_iff.mp h
  apply UInt16.toNat_ofNat_of_lt'
  have := e.width_pos
  unfold maxSize at room
  show p.size < 65536
  omega

theorem size_of_push (h : p.push e = .ok (i, q)) : q.size = p.size + e.width := by
  obtain ⟨-, -, rfl⟩ := push_eq_ok_iff.mp h
  exact p.size_append_slots e

theorem afterPush_of_ok (h : p.push e = .ok (i, q)) : p.afterPush e = q := by
  rw [afterPush, h]

theorem afterPush_of_error (h : p.push e = .error o) : p.afterPush e = p := by
  rw [afterPush, h]

/-- The number stands for the constant that was pushed. -/
theorem get_of_push (h : p.push e = .ok (i, q)) : q.get i = .ok e := by
  have number := toNat_of_push h
  obtain ⟨-, -, rfl⟩ := push_eq_ok_iff.mp h
  have nonzero : i ≠ 0 := by
    rintro rfl
    exact Nat.succ_ne_zero _ number.symm
  have place : i.toNat - 1 = p.slots.toList.length := by
    rw [number, size, Nat.add_sub_cancel, Array.length_toList]
  rw [get_eq_ok_iff, get?_eq, if_neg nonzero, Array.toList_appendList, place,
    List.getElem?_append_right (Nat.le_refl _), Nat.sub_self]
  exact e.getElem?_slots_zero

/-! ## Many calls -/

theorem Extends.size_le (h : q.Extends p) : p.size ≤ q.size := by
  have shorter := List.IsPrefix.length_le h
  rw [Array.length_toList, Array.length_toList] at shorter
  exact Nat.succ_le_succ shorter

theorem Extends.get_eq_ok (h : q.Extends p) (found : p.get i = .ok e) : q.get i = .ok e :=
  get_eq_ok_iff.mpr (h.get?_eq_some (get_eq_ok_iff.mp found))

theorem size_afterPush_le (small : p.size ≤ maxSize) (e : Entry) :
    (p.afterPush e).size ≤ maxSize := by
  rcases p.afterPush_cases e with ⟨-, same⟩ | ⟨room, appended⟩
  · rwa [same]
  · rwa [appended, size_append_slots]

/-- No run of calls takes a pool over the limit. -/
theorem size_afterPushes_le (small : p.size ≤ maxSize) (entries : List Entry) :
    (p.afterPushes entries).size ≤ maxSize := by
  induction entries generalizing p with
  | nil => exact small
  | cons e entries ih => exact ih (size_afterPush_le small e)

/-- Constants that all find room are laid out one behind the other. -/
theorem afterPushes_of_le {entries : List Entry}
    (room : p.size + Entry.widths entries ≤ maxSize) :
    p.afterPushes entries = ⟨p.slots ++ entries.flatMap Entry.slots⟩ := by
  induction entries generalizing p with
  | nil =>
      show p = ⟨p.slots ++ ([] : List Entry)⟩
      rw [Array.appendList_nil]
  | cons e entries ih =>
      rw [Entry.widths_cons] at room
      have first : p.afterPush e = ⟨p.slots ++ e.slots⟩ := by
        rcases p.afterPush_cases e with ⟨full, -⟩ | ⟨-, appended⟩
        · omega
        · exact appended
      show (p.afterPush e).afterPushes entries = _
      rw [first, ih (by rw [size_append_slots]; omega), List.flatMap_cons]
      simp only [Pool.mk.injEq]
      apply Array.ext'
      simp

/-- The pool that calls make of constants that all find room is laid out from them. -/
theorem afterPushes_empty_of_lt {entries : List Entry} (room : Entry.widths entries < maxSize) :
    empty.afterPushes entries = ofEntries entries := by
  have fits : empty.size + Entry.widths entries ≤ maxSize := by
    rw [show empty.size = 1 from rfl]
    omega
  rw [afterPushes_of_le fits]
  exact congrArg mk (List.toArray_appendList [] _)

theorem canonical_empty : empty.Canonical :=
  Entry.paired_nil

/-- Calls of `push` on the empty pool, one after the other.  In each state that they reach, the pool
is within the limit and its marks are in their places.  The next call fails just if the constant
takes the pool over the limit; it tells which size that would have been, and leaves the pool as it
is.  Otherwise it gives the size as the number of the constant.  Whatever calls follow, the number
stands for the constant in each state that they reach, and a number that is given then is
greater. -/
theorem push_numbers {before : List Entry} (constants : .unusable ∉ before)
    (reached : p = empty.afterPushes before) :
    (p.size ≤ maxSize ∧ p.Canonical) ∧
      ∀ e : Entry,
        (∀ o, p.push e = .error o ↔ maxSize < p.size + e.width ∧ o = ⟨p.size + e.width⟩) ∧
        (∀ o, p.push e = .error o → p.afterPush e = p) ∧
        ∀ i q, p.push e = .ok (i, q) → i.toNat = p.size ∧ p.afterPush e = q ∧
          ∀ later, (q.afterPushes later).get i = .ok e ∧
            ∀ f j r, (q.afterPushes later).push f = .ok (j, r) → i < j := by
  have within : p.size ≤ maxSize := by
    rw [reached]
    exact size_afterPushes_le (by decide) before
  have marked : p.Canonical := by
    rw [reached]
    exact canonical_afterPushes canonical_empty constants
  refine ⟨⟨within, marked⟩, fun e => ⟨fun o => push_eq_error_iff, fun o => afterPush_of_error, ?_⟩⟩
  intro i q pushed
  refine ⟨toNat_of_push pushed, afterPush_of_ok pushed, fun later => ⟨?_, ?_⟩⟩
  · exact (q.extends_afterPushes later).get_eq_ok (get_of_push pushed)
  · intro f j r next
    have grown := (q.extends_afterPushes later).size_le
    have taken := e.width_pos
    rw [size_of_push pushed] at grown
    rw [UInt16.lt_iff_toNat_lt, toNat_of_push pushed, toNat_of_push next]
    omega

/-- In a pool with a single slot left, there is room for a narrow constant and not for a wide one.
The narrow one keeps its number through the calls that are refused. -/
theorem push_numbers_lastSlot :
    .unusable ∉ List.replicate 65533 (Entry.integer 0) ∧
      ∃ p q, p = empty.afterPushes (List.replicate 65533 (.integer 0)) ∧
        p.push (.long 1) = .error ⟨65536⟩ ∧ p.push (.integer 1) = .ok (65534, q) ∧
        (q.afterPushes [.integer 2, .long 3]).get 65534 = .ok (.integer 1) := by
  have constants : .unusable ∉ List.replicate 65533 (Entry.integer 0) := by
    intro mark
    cases List.eq_of_mem_replicate mark
  have widths : Entry.widths (List.replicate 65533 (.integer 0)) = 65533 :=
    Entry.widths_replicate 65533 (.integer 0)
  have size : (empty.afterPushes (List.replicate 65533 (.integer 0))).size = 65534 := by
    rw [afterPushes_empty_of_lt (by rw [widths]; decide), size_ofEntries, widths]
  obtain ⟨-, calls⟩ := push_numbers constants rfl
  have stored : (empty.afterPushes (List.replicate 65533 (.integer 0))).push (.integer 1) =
      .ok (65534, _) :=
    push_eq_ok_iff.mpr ⟨by rw [size]; decide, by rw [size]; rfl, rfl⟩
  refine ⟨constants, _, _, rfl, ?_, stored, ?_⟩
  · refine ((calls (.long 1)).1 _).mpr ?_
    rw [size]
    decide
  · exact (((calls (.integer 1)).2.2 _ _ stored).2.2 [.integer 2, .long 3]).1

end Pool

end JvmClass
