import JvmClass.Proofs.Pool.Constants

/-!
# JvmClass.Proofs.Pool.Layout — how constants lie in the slots of a pool.

A wide constant takes two slots, and the second of them is marked as holding nothing.  A pool that
was built by hand may have such a mark where none belongs, or lack one.  `Pool.Canonical` rules out
both, slot by slot.  It holds just of the pools that are laid out from a list of constants, which is
what reading does; so it decides whether a pool is what reading its bytes gives.
-/

namespace JvmClass

open Writer

namespace Entry

/-! ## Filling slots -/

/-- How many slots the entries take together. -/
def widths : List Entry → Nat
  | [] => 0
  | e :: entries => e.width + widths entries

theorem widths_cons (e : Entry) (entries : List Entry) :
    widths (e :: entries) = e.width + widths entries := rfl

/-- The entries fill this many slots, and no entry is more than that takes.  The last one may reach
one slot further. -/
def Fills : Nat → List Entry → Prop
  | n, [] => n = 0
  | n, e :: entries => 0 < n ∧ Fills (n - e.width) entries

theorem fills_widths (entries : List Entry) : Fills (widths entries) entries := by
  induction entries with
  | nil => rfl
  | cons e entries ih =>
      have := e.width_pos
      rw [Fills, widths_cons, Nat.add_sub_cancel_left]
      exact ⟨by omega, ih⟩

theorem width_le (e : Entry) : e.width ≤ 2 := by
  unfold width
  split <;> decide

/-- The entries take as many slots as there are, or one more because of a wide entry in the last
slot. -/
theorem widths_of_fills {n : Nat} {entries : List Entry} (h : Fills n entries) :
    widths entries = n ∨ 0 < n ∧ widths entries = n + 1 := by
  induction entries generalizing n with
  | nil => exact .inl (Eq.symm h)
  | cons e entries ih =>
      obtain ⟨some, rest⟩ := h
      have := e.width_pos
      have := e.width_le
      rw [widths_cons]
      rcases ih rest with within | ⟨left, beyond⟩
      · omega
      · omega

/-- One entry, and then as many as it takes to fill what is left. -/
theorem readFilling_succ (n : Nat) :
    readFilling (n + 1) = (do
      let e ← Entry.read
      let rest ← readFilling (n + 1 - e.width)
      pure (e :: rest)) := by
  rw [readFilling]
  congr
  funext e
  -- behind a wide entry in the last slot the subtraction stops at 0, and so does the reader
  by_cases wide : e.isWide
  · rw [if_pos wide, show e.width = 2 by rw [width, if_pos wide]]
    cases n <;> rfl
  · rw [if_neg wide, show e.width = 1 by rw [width, if_neg wide], Nat.add_sub_cancel]

theorem reads_readFilling (n : Nat) :
    Reads (readFilling n) fun entries bs => Fills n entries ∧ Series Stored entries bs := by
  -- an entry takes one slot or two, so all smaller numbers are needed
  induction n using Nat.strongRecOn with
  | ind n ih =>
      cases n with
      | zero =>
          refine (Reads.pure ([] : List Entry)).congr fun entries bs => ?_
          constructor
          · rintro ⟨rfl, rfl⟩
            exact ⟨rfl, .nil⟩
          · rintro ⟨fills, stored⟩
            cases stored with
            | nil => exact ⟨rfl, rfl⟩
            | cons => exact absurd fills.1 (Nat.lt_irrefl 0)
      | succ n =>
          rw [readFilling_succ]
          have rest : ∀ e : Entry, Reads (readFilling (n + 1 - e.width)) fun entries bs =>
              Fills (n + 1 - e.width) entries ∧ Series Stored entries bs := by
            intro e
            have := e.width_pos
            exact ih _ (by omega)
          refine (Entry.reads.bind fun e => (rest e).bind fun entries =>
            Reads.pure (e :: entries)).congr fun entries bs => ?_
          constructor
          · intro h
            rcases h with ⟨e, x, _, hx, ⟨entries, y, _, ⟨fills, hy⟩, ⟨rfl, rfl⟩, rfl⟩, rfl⟩
            rw [List.append_nil]
            exact ⟨⟨Nat.succ_pos n, fills⟩, .cons hx hy⟩
          · rintro ⟨fills, stored⟩
            cases stored with
            | nil => cases fills
            | @cons e entries x y hx hy =>
                refine ⟨e, x, y, hx, ⟨entries, y, [], ⟨fills.2, hy⟩, ⟨rfl, rfl⟩, ?_⟩, rfl⟩
                rw [List.append_nil]

/-! ## Slots -/

theorem length_flatMap_slots (entries : List Entry) :
    (entries.flatMap slots).length = widths entries := by
  induction entries with
  | nil => rfl
  | cons e entries ih => rw [List.flatMap_cons, List.length_append, length_slots, ih, widths_cons]

theorem slots_of_wide {e : Entry} (wide : e.isWide = true) : e.slots = [e, unusable] := if_pos wide

theorem slots_of_narrow {e : Entry} (narrow : ¬ e.isWide = true) : e.slots = [e] := if_neg narrow

/-- The marks between the constants leave no trace in what is written. -/
theorem series_flatMap_slots_iff {entries : List Entry} {bs : Bytes} :
    Series (fun e => Emits (Entry.write e)) (entries.flatMap slots) bs ↔
      Series (fun e => Emits (Entry.write e)) entries bs := by
  have mark : ∀ x, Emits unusable.write x ↔ x = [] := fun x => emits_pure_iff
  induction entries generalizing bs with
  | nil => exact Iff.rfl
  | cons e entries ih =>
      rw [List.flatMap_cons, Series.append_iff, Series.cons_iff]
      simp only [ih]
      by_cases wide : e.isWide
      · rw [slots_of_wide wide]
        simp only [Series.cons_iff, Series.nil_iff, mark]
        constructor
        · intro h
          rcases h with ⟨_, y, ⟨x, _, hx, ⟨_, _, rfl, rfl, rfl⟩, rfl⟩, hy, rfl⟩
          exact ⟨x, y, hx, hy, by simp⟩
        · rintro ⟨x, y, hx, hy, rfl⟩
          exact ⟨x, y, ⟨x, [], hx, ⟨[], [], rfl, rfl, rfl⟩, (List.append_nil x).symm⟩, hy, rfl⟩
      · rw [slots_of_narrow wide]
        simp only [Series.cons_iff, Series.nil_iff]
        constructor
        · intro h
          rcases h with ⟨_, y, ⟨x, _, hx, rfl, rfl⟩, hy, rfl⟩
          exact ⟨x, y, hx, hy, by simp⟩
        · rintro ⟨x, y, hx, hy, rfl⟩
          exact ⟨x, y, ⟨x, [], hx, rfl, (List.append_nil x).symm⟩, hy, rfl⟩

/-! ## Marks in their places -/

/-- Behind each wide entry stands a mark, and each mark stands behind a wide entry. -/
structure Paired (entries : List Entry) : Prop where
  marked : ∀ i e, entries[i]? = some e → e.isWide → entries[i + 1]? = some unusable
  needed : ∀ i, entries[i]? = some unusable →
    ∃ j e, i = j + 1 ∧ entries[j]? = some e ∧ e.isWide

theorem paired_nil : Paired [] := by
  constructor
  · intro i e h
    simp at h
  · intro i h
    simp at h

/-- A wide entry and its mark in front change nothing. -/
theorem paired_wide_iff {e : Entry} {entries : List Entry} (wide : e.isWide) :
    Paired (e :: unusable :: entries) ↔ Paired entries := by
  constructor
  · intro h
    constructor
    · intro i f hi hf
      exact h.marked (i + 2) f hi hf
    · intro i hi
      obtain ⟨j, f, same, hj, hf⟩ := h.needed (i + 2) hi
      obtain rfl : j = i + 1 := by omega
      cases i with
      | zero =>
          -- the entry in front is the mark itself, which is not wide
          cases hj
          cases hf
      | succ i => exact ⟨i, f, rfl, hj, hf⟩
  · intro h
    constructor
    · intro i f hi hf
      match i with
      | 0 => rfl
      | 1 =>
          cases hi
          cases hf
      | i + 2 => exact h.marked i f hi hf
    · intro i hi
      match i with
      | 0 =>
          cases hi
          cases wide
      | 1 => exact ⟨0, e, rfl, rfl, wide⟩
      | i + 2 =>
          obtain ⟨j, f, rfl, hj, hf⟩ := h.needed i hi
          exact ⟨j + 2, f, rfl, hj, hf⟩

/-- Neither does a narrow entry. -/
theorem paired_narrow_iff {e : Entry} {entries : List Entry} (narrow : ¬ e.isWide)
    (constant : e ≠ unusable) : Paired (e :: entries) ↔ Paired entries := by
  constructor
  · intro h
    constructor
    · intro i f hi hf
      exact h.marked (i + 1) f hi hf
    · intro i hi
      obtain ⟨j, f, same, hj, hf⟩ := h.needed (i + 1) hi
      obtain rfl : j = i := by omega
      cases j with
      | zero =>
          cases hj
          exact absurd hf narrow
      | succ j => exact ⟨j, f, rfl, hj, hf⟩
  · intro h
    constructor
    · intro i f hi hf
      cases i with
      | zero =>
          cases hi
          exact absurd hf narrow
      | succ i => exact h.marked i f hi hf
    · intro i hi
      cases i with
      | zero =>
          cases hi
          exact absurd rfl constant
      | succ i =>
          obtain ⟨j, f, rfl, hj, hf⟩ := h.needed i hi
          exact ⟨j + 1, f, rfl, hj, hf⟩

theorem paired_flatMap_slots {entries : List Entry} (constants : unusable ∉ entries) :
    Paired (entries.flatMap slots) := by
  induction entries with
  | nil => exact paired_nil
  | cons e entries ih =>
      have constant : e ≠ unusable := fun h => constants (h ▸ List.mem_cons_self)
      have rest := ih fun h => constants (List.mem_cons_of_mem e h)
      rw [List.flatMap_cons]
      by_cases wide : e.isWide
      · rw [slots_of_wide wide]
        exact (paired_wide_iff wide).mpr rest
      · rw [slots_of_narrow wide]
        exact (paired_narrow_iff wide constant).mpr rest

/-- Slots whose marks are in their places are those of a list of constants. -/
theorem exists_flatMap_of_paired {slots' : List Entry} (h : Paired slots') :
    ∃ entries : List Entry, unusable ∉ entries ∧ slots' = entries.flatMap slots := by
  -- the list is taken apart a constant at a time, so its length goes down by one or two
  induction size : slots'.length using Nat.strongRecOn generalizing slots' with
  | ind n ih =>
      cases slots' with
      | nil => exact ⟨[], List.not_mem_nil, rfl⟩
      | cons e rest =>
          have constant : e ≠ unusable := by
            rintro rfl
            obtain ⟨j, _, impossible, -⟩ := h.needed 0 rfl
            cases impossible
          by_cases wide : e.isWide
          · have second := h.marked 0 e rfl wide
            cases rest with
            | nil => cases second
            | cons f rest =>
                cases second
                have smaller : rest.length < n := by
                  rw [← size, List.length_cons, List.length_cons]
                  omega
                obtain ⟨entries, constants, same⟩ :=
                  ih _ smaller ((paired_wide_iff wide).mp h) rfl
                refine ⟨e :: entries, ?_, ?_⟩
                · rw [List.mem_cons]
                  exact not_or.mpr ⟨constant.symm, constants⟩
                · rw [List.flatMap_cons, slots_of_wide wide, same]
                  rfl
          · have smaller : rest.length < n := by
              rw [← size, List.length_cons]
              omega
            obtain ⟨entries, constants, same⟩ :=
              ih _ smaller ((paired_narrow_iff wide constant).mp h) rfl
            refine ⟨e :: entries, ?_, ?_⟩
            · rw [List.mem_cons]
              exact not_or.mpr ⟨constant.symm, constants⟩
            · rw [List.flatMap_cons, slots_of_narrow wide, same]
              rfl

end Entry

/-! ## Pools -/

namespace Pool

/-- Behind each wide constant stands a slot that holds nothing, and such slots stand nowhere
else. -/
def Canonical (p : Pool) : Prop :=
  Entry.Paired p.slots.toList

theorem canonical_iff {p : Pool} :
    p.Canonical ↔ ∃ entries, Entry.unusable ∉ entries ∧ p = ofEntries entries := by
  constructor
  · intro h
    obtain ⟨entries, constants, same⟩ := Entry.exists_flatMap_of_paired h
    refine ⟨entries, constants, ?_⟩
    rw [ofEntries, ← same, Array.toArray_toList]
  · intro given
    rcases given with ⟨entries, constants, rfl⟩
    exact Entry.paired_flatMap_slots constants

theorem size_ofEntries (entries : List Entry) :
    (ofEntries entries).size = Entry.widths entries + 1 := by
  rw [size, ofEntries, List.size_toArray, Entry.length_flatMap_slots]

/-- The bytes that a pool is read from. -/
def Stored (p : Pool) (bs : Bytes) : Prop :=
  ∃ size entries body, p = ofEntries entries ∧ Entry.Fills (size.toNat - 1) entries ∧
    Series Entry.Stored entries body ∧ bs = Bytes.ofWord16 size ++ body

theorem reads : Reads Pool.read Stored := by
  refine (Reads.word16.bind fun size => (Entry.reads_readFilling (size.toNat - 1)).bind
    fun entries => Reads.pure (ofEntries entries)).congr fun p bs => ?_
  constructor
  · intro h
    rcases h with ⟨size, _, _, rfl, ⟨entries, body, _, ⟨fills, stored⟩, ⟨rfl, rfl⟩, rfl⟩, rfl⟩
    exact ⟨size, entries, body, rfl, fills, stored, by rw [List.append_nil]⟩
  · intro h
    rcases h with ⟨size, entries, body, rfl, fills, stored, rfl⟩
    exact ⟨size, _, body, rfl, ⟨entries, body, [], ⟨fills, stored⟩, ⟨rfl, rfl⟩,
      (List.append_nil body).symm⟩, rfl⟩

instance plain (p : Pool) : Plain p.write := by
  unfold Pool.write
  infer_instance

theorem emits_write_iff {entries : List Entry} {bs : Bytes} :
    Emits (ofEntries entries).write bs ↔ Entry.widths entries + 1 < 0x10000 ∧
      ∃ body, Series (fun e => Emits (Entry.write e)) entries body ∧
        bs = .ofWord16 (.ofNat (Entry.widths entries + 1)) ++ body := by
  unfold Pool.write
  rw [emits_bind_iff, size_ofEntries]
  simp only [emits_count16_iff, emits_forM_iff]
  show (∃ a b, _ ∧ Series _ (entries.flatMap Entry.slots) b ∧ bs = a ++ b) ↔ _
  simp only [Entry.series_flatMap_slots_iff]
  constructor
  · intro given
    rcases given with ⟨_, body, ⟨small, rfl⟩, h, rfl⟩
    exact ⟨small, body, h, rfl⟩
  · rintro ⟨small, body, h, rfl⟩
    exact ⟨_, body, ⟨small, rfl⟩, h, rfl⟩

/-- Pools that are read have their marks in the right places. -/
theorem canonical_of_stored {p : Pool} {bs : Bytes} (h : p.Stored bs) : p.Canonical := by
  -- a mark has no stored form, so none of the entries that were read is one
  obtain ⟨_, entries, body, same, -, stored, -⟩ := h
  refine canonical_iff.mpr ⟨entries, fun mark => ?_, same⟩
  obtain ⟨x, hx, -⟩ := stored.exists_infix_of_mem mark
  exact Entry.ne_unusable_of_stored hx rfl

/-- A pool is read from the bytes that were written for it just if it is canonical. -/
theorem stored_iff_of_emits {p : Pool} {bs : Bytes} (h : Emits p.write bs) :
    p.Stored bs ↔ p.Canonical := by
  constructor
  · exact canonical_of_stored
  · rw [canonical_iff]
    intro given
    rcases given with ⟨entries, constants, rfl⟩
    obtain ⟨small, body, written, rfl⟩ := emits_write_iff.mp h
    refine ⟨_, entries, body, rfl, ?_, ?_, rfl⟩
    · rw [UInt16.toNat_ofNat_of_lt' small, Nat.add_sub_cancel]
      exact Entry.fills_widths entries
    · have constant : ∀ e ∈ entries, e ≠ .unusable := fun e he same => constants (same ▸ he)
      refine written.mono fun e he x hx => ?_
      exact Entry.stored_of_emits (constant e he) hx

end Pool

end JvmClass
