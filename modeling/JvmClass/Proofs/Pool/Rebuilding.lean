import JvmClass.Proofs.Pool.Declared
import JvmClass.Proofs.Pool.Numbers

/-!
# JvmClass.Proofs.Pool.Rebuilding — a pool that was read, built again by pushing its constants.

Two accounts are kept of the slots that constants take.  Reading counts down the declared slots
until none is left, and `push` counts up from the size of the pool.  They agree: pushing the
constants that were read, in their order, gives the pool that was read, and each constant is
numbered with the slot that it takes in the file (`Pool.pushAll_of_read`).  The one pool that cannot
be built in this way is the one that is too large, and its last constant is the one refused.
-/

namespace JvmClass

theorem Entry.widths_append (front back : List Entry) :
    widths (front ++ back) = widths front + widths back := by
  rw [← length_flatMap_slots, List.flatMap_append, List.length_append, length_flatMap_slots,
    length_flatMap_slots]

namespace Pool

/-- Pushes constants one after the other and gives their numbers.  A refusal ends it. -/
def pushAll (p : Pool) : List Entry → Except Overflow (List UInt16 × Pool)
  | [] => .ok ([], p)
  | e :: entries => do
    let (number, q) ← p.push e
    let (numbers, r) ← q.pushAll entries
    pure (number :: numbers, r)

variable {p q : Pool} {e : Entry} {entries : List Entry} {i : UInt16} {numbers : List UInt16}

theorem pushAll_cons (pushed : p.push e = .ok (i, q)) (entries : List Entry) :
    p.pushAll (e :: entries) = (q.pushAll entries).map fun r => (i :: r.1, r.2) := by
  show (p.push e >>= _) = _
  rw [pushed]
  show (q.pushAll entries >>= _) = _
  cases q.pushAll entries <;> rfl

/-- Constants that all find room are all pushed.  Behind a pool each of them is numbered with the
size that the pool has together with the constants in between, and the number stands for it. -/
theorem pushAll_of_le (room : p.size + Entry.widths entries ≤ maxSize) :
    ∃ numbers, p.pushAll entries = .ok (numbers, ⟨p.slots ++ entries.flatMap Entry.slots⟩) ∧
      numbers.length = entries.length ∧
      ∀ k e, entries[k]? = some e → ∃ i, numbers[k]? = some i ∧
        i.toNat = p.size + Entry.widths (entries.take k) ∧
        get ⟨p.slots ++ entries.flatMap Entry.slots⟩ i = .ok e := by
  induction entries generalizing p with
  | nil =>
      refine ⟨[], ?_, rfl, by simp⟩
      rw [List.flatMap_nil, Array.appendList_nil]
      rfl
  | cons e entries ih =>
      rw [Entry.widths_cons] at room
      have pushed : p.push e = .ok (.ofNat p.size, ⟨p.slots ++ e.slots⟩) :=
        push_eq_ok_iff.mpr ⟨by omega, rfl, rfl⟩
      -- the others are pushed behind the first, and what is behind a constant does not move it
      obtain ⟨numbers, others, same, each⟩ :=
        ih (p := ⟨p.slots ++ e.slots⟩) (by rw [size_append_slots]; omega)
      have laid : p.slots ++ (e :: entries).flatMap Entry.slots =
          p.slots ++ e.slots ++ entries.flatMap Entry.slots := by
        apply Array.ext'
        simp
      have kept : Extends ⟨p.slots ++ e.slots ++ entries.flatMap Entry.slots⟩
          ⟨p.slots ++ e.slots⟩ :=
        ⟨entries.flatMap Entry.slots, Array.toList_appendList.symm⟩
      refine ⟨.ofNat p.size :: numbers, ?_, congrArg (· + 1) same, ?_⟩
      · rw [pushAll_cons pushed, others, laid]
        rfl
      · intro k f hf
        rw [laid]
        cases k with
        | zero =>
            obtain rfl : e = f := Option.some.inj hf
            refine ⟨.ofNat p.size, rfl, ?_, kept.get_eq_ok (get_of_push pushed)⟩
            exact toNat_of_push pushed
        | succ k =>
            obtain ⟨i, hi, place, found⟩ := each k f hf
            refine ⟨i, hi, ?_, found⟩
            rw [place, size_append_slots, List.take_succ_cons, Entry.widths_cons, Nat.add_assoc]

/-- Where the last constant is refused, the refusal is all that the calls give. -/
theorem pushAll_concat_of_error {o : Overflow} (pushed : p.pushAll entries = .ok (numbers, q))
    (refused : q.push e = .error o) : p.pushAll (entries ++ [e]) = .error o := by
  induction entries generalizing p numbers with
  | nil =>
      obtain ⟨-, rfl⟩ : [] = numbers ∧ p = q := by simpa [pushAll] using pushed
      show (p.push e >>= _) = _
      rw [refused]
      rfl
  | cons f entries ih =>
      cases first : p.push f with
      | error o' =>
          have stopped : p.pushAll (f :: entries) = .error o' := by
            show (p.push f >>= _) = _
            rw [first]
            rfl
          rw [stopped] at pushed
          cases pushed
      | ok result =>
          obtain ⟨i, r⟩ := result
          rw [pushAll_cons first] at pushed
          rw [List.cons_append, pushAll_cons first]
          cases others : r.pushAll entries with
          | error o' =>
              rw [others] at pushed
              cases pushed
          | ok result =>
              obtain ⟨numbers', s⟩ := result
              rw [others] at pushed
              obtain ⟨-, rfl⟩ : i :: numbers' = numbers ∧ s = q := by
                simpa [Except.map] using pushed
              rw [ih others]
              rfl

/-! ## From the empty pool -/

theorem empty_append_slots (entries : List Entry) :
    (⟨empty.slots ++ entries.flatMap Entry.slots⟩ : Pool) = ofEntries entries :=
  congrArg mk (List.toArray_appendList [] _)

/-- A pool that is within the limit is built by pushing the constants that it is laid out from. -/
theorem pushAll_ofEntries (fits : (ofEntries entries).size ≤ maxSize) :
    ∃ numbers, empty.pushAll entries = .ok (numbers, ofEntries entries) ∧
      numbers.length = entries.length ∧
      ∀ k e, entries[k]? = some e → ∃ i, numbers[k]? = some i ∧
        i.toNat = 1 + Entry.widths (entries.take k) ∧ (ofEntries entries).get i = .ok e := by
  have room : empty.size + Entry.widths entries ≤ maxSize := by
    rw [size_ofEntries] at fits
    show 1 + _ ≤ maxSize
    omega
  rw [← empty_append_slots]
  exact pushAll_of_le room

/-- If the last constant alone takes a pool over the limit, it is the one that is refused. -/
theorem pushAll_ofEntries_of_lt (others : (ofEntries entries).size ≤ maxSize)
    (large : maxSize < (ofEntries (entries ++ [e])).size) :
    empty.pushAll (entries ++ [e]) = .error ⟨(ofEntries (entries ++ [e])).size⟩ := by
  have size : (ofEntries (entries ++ [e])).size = (ofEntries entries).size + e.width := by
    rw [size_ofEntries, size_ofEntries, Entry.widths_append, Entry.widths_cons]
    show _ + (_ + 0) + 1 = _
    omega
  obtain ⟨numbers, pushed, -⟩ := pushAll_ofEntries others
  apply pushAll_concat_of_error pushed
  rw [push_eq_error_iff, ← size]
  exact ⟨large, rfl⟩

end Pool

/-! ## What was read -/

/-- The constants that are listed from the bytes of a pool are the ones that are stored there, and
each takes the slot behind those before it. -/
theorem Entry.getElem?_constantsFrom {entries : List Entry} {body : Bytes}
    (stored : Series Stored entries body) {n : Nat} (fills : Fills n entries) (slot : Nat)
    (rest : Bytes) {k : Nat} {e : Entry} (he : entries[k]? = some e) :
    ∃ c, (constantsFrom n slot (body ++ rest))[k]? = some c ∧
      c.slot = slot + widths (entries.take k) ∧ e.Stored (c.number :: c.contents) := by
  induction stored generalizing n slot k with
  | nil => cases he
  | @cons f entries x y hx hy ih =>
      obtain ⟨positive, fills⟩ := fills
      obtain ⟨n, rfl⟩ : ∃ m, n = m + 1 := ⟨n - 1, by omega⟩
      obtain ⟨tag, contents, tagged, hc, rfl⟩ := hx
      rw [List.append_assoc, constantsFrom_cons tagged hc]
      cases k with
      | zero =>
          obtain rfl : f = e := Option.some.inj he
          exact ⟨_, rfl, rfl, tag, contents, tagged, hc, rfl⟩
      | succ k =>
          obtain ⟨c, hc, place, held⟩ := ih fills (slot + f.width) he
          refine ⟨c, hc, ?_, held⟩
          rw [place, List.take_succ_cons, widths_cons, Nat.add_assoc]

namespace Pool

variable {p : Pool}

/-- A pool is read from its size and as many constants as fill it. -/
theorem read_eq_ok_iff {input rest : Bytes} :
    Pool.read input = .ok p rest ↔ ∃ size behind entries, input = .ofWord16 size ++ behind ∧
      Entry.readFilling (size.toNat - 1) behind = .ok entries rest ∧ p = ofEntries entries := by
  unfold Pool.read
  simp only [Decoder.bind_eq_ok_iff, Decoder.word16_eq_ok_iff]
  constructor
  · intro h
    obtain ⟨size, behind, split, entries, _, filled, same⟩ := h
    cases same
    exact ⟨size, behind, entries, split, filled, rfl⟩
  · intro h
    obtain ⟨size, behind, entries, split, filled, rfl⟩ := h
    exact ⟨size, behind, split, entries, rest, filled, rfl⟩

/-- A pool that was read is built again by pushing the constants that were read, in their order, if
its size is within the limit.  Each constant is given the number of the slot that it was read into,
which is one more than the slots of the constants before it.  Where the size is beyond the limit,
the last of the calls fails, and tells that size. -/
theorem pushAll_of_read {input rest : Bytes} (run : Pool.read input = .ok p rest) :
    ∃ entries, Entry.readFilling (storedCount input - 1) (input.drop 2) = .ok entries rest ∧
      (p.size ≤ maxSize → ∃ numbers, empty.pushAll entries = .ok (numbers, p) ∧
        numbers.length = entries.length ∧
        ∀ k e, entries[k]? = some e → ∃ i c, numbers[k]? = some i ∧
          i.toNat = 1 + Entry.widths (entries.take k) ∧ p.get i = .ok e ∧
          (storedConstants input)[k]? = some c ∧ c.slot = i.toNat ∧
          e.Stored (c.number :: c.contents)) ∧
      (maxSize < p.size → empty.pushAll entries = .error ⟨p.size⟩) := by
  obtain ⟨size, behind, entries, rfl, filled, rfl⟩ := read_eq_ok_iff.mp run
  obtain ⟨body, ⟨fills, stored⟩, same⟩ := (Entry.reads_readFilling _).sound filled
  obtain rfl : behind = body ++ rest := same
  rw [storedCount_append, storedConstants_append]
  refine ⟨entries, filled, fun within => ?_, fun beyond => ?_⟩
  · obtain ⟨numbers, pushed, count, each⟩ := pushAll_ofEntries within
    refine ⟨numbers, pushed, count, fun k e he => ?_⟩
    obtain ⟨i, hi, place, found⟩ := each k e he
    obtain ⟨c, hc, slot, held⟩ := Entry.getElem?_constantsFrom stored fills 1 rest he
    exact ⟨i, c, hi, place, found, hc, by rw [slot, place], held⟩
  · -- the declared size is a word, so what is beyond the limit is the second slot of the last one
    have last : Entry.widths entries = size.toNat - 1 + 1 := by
      have word := size.toNat_lt
      rw [size_ofEntries] at beyond
      unfold maxSize at beyond
      rcases Entry.widths_of_fills fills with total | ⟨-, total⟩ <;> omega
    obtain ⟨front, e, rfl, wide⟩ := Entry.exists_last_of_fills fills last
    apply pushAll_ofEntries_of_lt _ beyond
    have word := size.toNat_lt
    have width : e.width = 2 := if_pos wide
    rw [Entry.widths_append, Entry.widths_cons, width] at last
    rw [size_ofEntries]
    unfold maxSize
    omega

/-- A class, a long, a string and a double, in the six slots that are declared. -/
theorem pushAll_of_read_mixed :
    ∃ p, Pool.read [0x00, 0x07, 0x07, 0x00, 0x04, 0x05, 0, 0, 0, 0, 0, 0, 0, 7, 0x01, 0x00, 0x01,
        0x41, 0x06, 0x3F, 0xF0, 0, 0, 0, 0, 0, 0, 0xFF] = .ok p [0xFF] ∧ p.size ≤ maxSize ∧
      empty.pushAll [.classRef 4, .long 7, .utf8 "A", .double 0x3FF0000000000000] =
        .ok ([1, 2, 4, 5], p) := by
  have run : Pool.read [0x00, 0x07, 0x07, 0x00, 0x04, 0x05, 0, 0, 0, 0, 0, 0, 0, 7, 0x01, 0x00,
      0x01, 0x41, 0x06, 0x3F, 0xF0, 0, 0, 0, 0, 0, 0, 0xFF] = .ok ⟨#[.classRef 4, .long 7,
        .unusable, .utf8 "A", .double 0x3FF0000000000000, .unusable]⟩ [0xFF] := rfl
  have filled : Entry.readFilling 6 [0x07, 0x00, 0x04, 0x05, 0, 0, 0, 0, 0, 0, 0, 7, 0x01, 0x00,
      0x01, 0x41, 0x06, 0x3F, 0xF0, 0, 0, 0, 0, 0, 0, 0xFF] =
      .ok [.classRef 4, .long 7, .utf8 "A", .double 0x3FF0000000000000] [0xFF] := rfl
  have fits : size ⟨#[.classRef 4, .long 7, .unusable, .utf8 "A", .double 0x3FF0000000000000,
      .unusable]⟩ ≤ maxSize := by decide
  obtain ⟨entries, decoded, built, -⟩ := pushAll_of_read run
  obtain rfl : [.classRef 4, .long 7, .utf8 "A", .double 0x3FF0000000000000] = entries := by
    cases filled.symm.trans decoded
    rfl
  obtain ⟨numbers, pushed, -⟩ := built fits
  refine ⟨_, run, fits, ?_⟩
  rw [pushed]
  cases pushed
  rfl

end Pool

end JvmClass
