import JvmClass.Proofs.Text.Payload

/-!
# JvmClass.Proofs.Text.Grammar — the payloads of string constants, byte by byte.

`decode` tries two readings of a payload, and here is the grammar of each, as sequences of bytes
that stand for a character.  The two share the characters of the basic plane other than zero.  Plain
UTF-8 has a zero byte and sequences of four bytes besides; the stored form spells zero in two bytes,
and the characters beyond the basic plane as two surrogates of three bytes each.

A payload holds a string just if it is made up of the sequences of one grammar
(`exists_decode_iff`).  So one fault anywhere in a payload can be enough to rule out both:
`Faulty` lists such faults, and `decode_of_faulty` says that none of them is let pass.
-/

namespace JvmClass.Text

/-! ## Sequences -/

/-- The byte lies between two numbers, both included. -/
def Within (low high : Nat) (b : UInt8) : Prop :=
  low ≤ b.toNat ∧ b.toNat ≤ high

/-- The characters of the basic plane other than zero.  What would be a surrogate is no
character, and no sequence is longer than it has to be. -/
inductive Basic : List UInt8 → Prop
  | one {a : UInt8} : Within 0x01 0x7F a → Basic [a]
  | two {a b : UInt8} : Within 0xC2 0xDF a → Within 0x80 0xBF b → Basic [a, b]
  | three {a b c : UInt8} : Within 0xE0 0xEF a → Within 0x80 0xBF b → Within 0x80 0xBF c →
      (a.toNat = 0xE0 → 0xA0 ≤ b.toNat) → (a.toNat = 0xED → b.toNat ≤ 0x9F) → Basic [a, b, c]

/-- Zero and the characters beyond the basic plane in plain UTF-8. -/
inductive PlainOnly : List UInt8 → Prop
  | zero : PlainOnly [0x00]
  | four {a b c d : UInt8} : Within 0xF0 0xF4 a → Within 0x80 0xBF b → Within 0x80 0xBF c →
      Within 0x80 0xBF d → (a.toNat = 0xF0 → 0x90 ≤ b.toNat) →
      (a.toNat = 0xF4 → b.toNat ≤ 0x8F) → PlainOnly [a, b, c, d]

/-- A surrogate, whose second byte tells which half of a pair it is. -/
inductive Surrogate (low high : Nat) : List UInt8 → Prop
  | mk {b c : UInt8} : Within low high b → Within 0x80 0xBF c → Surrogate low high [0xED, b, c]

/-- A surrogate that opens a pair. -/
def High : List UInt8 → Prop :=
  Surrogate 0xA0 0xAF

/-- A surrogate that closes a pair. -/
def Low : List UInt8 → Prop :=
  Surrogate 0xB0 0xBF

/-- Zero and the characters beyond the basic plane in the stored form. -/
inductive StoredOnly : List UInt8 → Prop
  | zero : StoredOnly [0xC0, 0x80]
  | pair {x y : List UInt8} : High x → Low y → StoredOnly (x ++ y)

/-- A character in plain UTF-8. -/
def PlainSequence (x : List UInt8) : Prop :=
  Basic x ∨ PlainOnly x

/-- A character in the stored form. -/
def StoredSequence (x : List UInt8) : Prop :=
  Basic x ∨ StoredOnly x

/-- The payload consists of such sequences, one behind the other. -/
def MadeOf (P : List UInt8 → Prop) (payload : List UInt8) : Prop :=
  ∃ pieces : List (List UInt8), (∀ x ∈ pieces, P x) ∧ payload = pieces.flatten

/-! ## Units and their sequences -/

theorem isHigh_iff {u : UInt16} : isHigh u = true ↔ 0xD800 ≤ u.toNat ∧ u.toNat < 0xDC00 := by
  simp [isHigh]

theorem isLow_iff {u : UInt16} : isLow u = true ↔ 0xDC00 ≤ u.toNat ∧ u.toNat < 0xE000 := by
  simp [isLow]

theorem no_surrogate_iff {u : UInt16} :
    isHigh u = false ∧ isLow u = false ↔ u.toNat < 0xD800 ∨ 0xE000 ≤ u.toNat := by
  rw [← Bool.not_eq_true, ← Bool.not_eq_true, isHigh_iff, isLow_iff]
  omega

theorem within_ofNat {low high n : Nat} (small : n < 0x100) (h : low ≤ n ∧ n ≤ high) :
    Within low high (.ofNat n) := by
  unfold Within
  rw [UInt8.toNat_ofNat']
  omega

theorem isTail_of_within {low high : Nat} {b : UInt8} (h : Within low high b) (least : 0x80 ≤ low)
    (most : high ≤ 0xBF) : isTail b = true := by
  obtain ⟨above, below⟩ := h
  rw [isTail_iff]
  omega

/-- Any three bytes of these sorts are those of a unit. -/
theorem exists_unit_of_three {a b c : UInt8} (lead : Within 0xE0 0xEF a)
    (second : Within 0x80 0xBF b) (third : Within 0x80 0xBF c)
    (least : a.toNat = 0xE0 → 0xA0 ≤ b.toNat) :
    ∃ u : UInt16, encodeUnit u = [a, b, c] ∧
      u.toNat = (a.toNat - 0xE0) * 0x1000 + (b.toNat - 0x80) * 0x40 + (c.toNat - 0x80) := by
  have written := encodeUnit_three (a := a) (b := b) (c := c)
  have tails := And.intro (isTail_of_within second (by decide) (by decide))
    (isTail_of_within third (by decide) (by decide))
  unfold Within at lead second third
  refine ⟨_, written (by omega) tails.1 tails.2 (by omega), ?_⟩
  rw [UInt16.toNat_ofNat']
  omega

/-- The three bytes of a unit. -/
theorem encodeUnit_of_long {u : UInt16} (long : 0x800 ≤ u.toNat) :
    ∃ a b c : UInt8, encodeUnit u = [a, b, c] ∧ a.toNat = 0xE0 + u.toNat / 0x1000 ∧
      b.toNat = 0x80 + u.toNat / 0x40 % 0x40 ∧ c.toNat = 0x80 + u.toNat % 0x40 := by
  have bound := u.toNat_lt
  refine ⟨_, _, _, by rw [encodeUnit, if_neg (by omega), if_neg (by omega)], ?_, ?_, ?_⟩
  all_goals
    rw [UInt8.toNat_ofNat']
    omega

theorem basic_iff {x : List UInt8} : Basic x ↔
    ∃ u : UInt16, u.toNat ≠ 0 ∧ (isHigh u = false ∧ isLow u = false) ∧ encodeUnit u = x := by
  constructor
  · intro h
    cases h with
    | @one a lead =>
        unfold Within at lead
        have value : (UInt16.ofNat a.toNat).toNat = a.toNat := by
          rw [UInt16.toNat_ofNat']
          omega
        have nonzero : a ≠ 0 := by
          rintro rfl
          exact absurd lead.1 (by decide)
        refine ⟨.ofNat a.toNat, ?_, no_surrogate_iff.mpr ?_, encodeUnit_one ?_ nonzero⟩ <;> omega
    | @two a b lead second =>
        have tail := isTail_of_within second (by decide) (by decide)
        unfold Within at lead second
        refine ⟨_, ?_, no_surrogate_iff.mpr ?_, encodeUnit_two ?_ tail ?_⟩
        all_goals
          try rw [UInt16.toNat_ofNat']
          omega
    | three lead second third least most =>
        obtain ⟨u, written, value⟩ := exists_unit_of_three lead second third least
        unfold Within at lead second third
        refine ⟨u, ?_, no_surrogate_iff.mpr ?_, written⟩ <;> omega
  · rintro ⟨u, nonzero, character, rfl⟩
    rw [no_surrogate_iff] at character
    have bound := u.toNat_lt
    by_cases long : 0x800 ≤ u.toNat
    · obtain ⟨a, b, c, written, ha, hb, hc⟩ := encodeUnit_of_long long
      rw [written]
      refine .three ⟨?_, ?_⟩ ⟨?_, ?_⟩ ⟨?_, ?_⟩ (fun _ => ?_) (fun _ => ?_) <;> omega
    · rw [encodeUnit]
      split
      · exact .one (within_ofNat (by omega) (by omega))
      · rw [if_pos (by omega)]
        exact .two (within_ofNat (by omega) (by omega)) (within_ofNat (by omega) (by omega))

theorem surrogate_iff {low high : Nat} (least : 0x80 ≤ low) (most : high ≤ 0xBF)
    {x : List UInt8} : Surrogate low high x ↔
      ∃ u : UInt16, 0xD000 + (low - 0x80) * 0x40 ≤ u.toNat ∧
        u.toNat < 0xD000 + (high + 1 - 0x80) * 0x40 ∧ encodeUnit u = x := by
  constructor
  · rintro ⟨second, third⟩
    have lead : Within 0xE0 0xEF 0xED := ⟨by decide, by decide⟩
    have tail : Within 0x80 0xBF _ := ⟨Nat.le_trans least second.1, Nat.le_trans second.2 most⟩
    obtain ⟨u, written, value⟩ := exists_unit_of_three lead tail third nofun
    rw [show (0xED : UInt8).toNat = 0xED from rfl] at value
    unfold Within at second third
    refine ⟨u, ?_, ?_, written⟩ <;> omega
  · rintro ⟨u, above, below, rfl⟩
    obtain ⟨a, b, c, written, ha, hb, hc⟩ := encodeUnit_of_long (u := u) (by omega)
    have lead : a = 0xED := by
      rw [← UInt8.toNat_inj, ha, show (0xED : UInt8).toNat = 0xED from rfl]
      omega
    rw [written, lead]
    refine .mk ⟨?_, ?_⟩ ⟨?_, ?_⟩ <;> omega

theorem high_iff {x : List UInt8} : High x ↔ ∃ u : UInt16, isHigh u = true ∧ encodeUnit u = x := by
  simp only [isHigh_iff, and_assoc]
  exact surrogate_iff (by decide) (by decide)

theorem low_iff {x : List UInt8} : Low x ↔ ∃ u : UInt16, isLow u = true ∧ encodeUnit u = x := by
  simp only [isLow_iff, and_assoc]
  exact surrogate_iff (by decide) (by decide)

/-! ## Characters and their sequences -/

/-- A character has one unit that is no surrogate, or the two of a pair. -/
theorem units_cases (c : Char) :
    (∃ u : UInt16, units c = [u] ∧ u.toNat = c.toNat ∧ (isHigh u = false ∧ isLow u = false)) ∨
      ∃ u v : UInt16, units c = [u, v] ∧ isHigh u = true ∧ isLow v = true := by
  have valid : c.toNat < 0xD800 ∨ (0xDFFF < c.toNat ∧ c.toNat < 0x110000) := c.valid
  unfold units
  simp only [no_surrogate_iff, isHigh_iff, isLow_iff]
  split
  · have unit : (UInt16.ofNat c.toNat).toNat = c.toNat := by
      rw [UInt16.toNat_ofNat']
      omega
    exact .inl ⟨_, rfl, unit, by omega⟩
  · refine .inr ⟨_, _, rfl, ?_, ?_⟩
    all_goals
      rw [UInt16.toNat_ofNat']
      omega

/-- The stored form spells a character in the sequences of its grammar, and each of these spells
one. -/
theorem storedSequence_iff {x : List UInt8} :
    StoredSequence x ↔ ∃ c : Char, (units c).flatMap encodeUnit = x := by
  constructor
  · rintro (basic | zero | ⟨first, second⟩)
    · obtain ⟨u, -, ⟨notHigh, notLow⟩, rfl⟩ := basic_iff.mp basic
      refine ⟨.ofNat u.toNat, ?_⟩
      rw [units_basic notHigh notLow, List.flatMap_singleton]
    · exact ⟨'\x00', by decide⟩
    · obtain ⟨u, high, rfl⟩ := high_iff.mp first
      obtain ⟨v, low, rfl⟩ := low_iff.mp second
      refine ⟨_, by rw [units_pair high low, List.flatMap_cons, List.flatMap_singleton]⟩
  · rintro ⟨c, rfl⟩
    obtain ⟨u, spelled, -, character⟩ | ⟨u, v, spelled, high, low⟩ := units_cases c
    · rw [spelled, List.flatMap_singleton]
      by_cases zero : u.toNat = 0
      · obtain rfl : u = 0 := UInt16.toNat_inj.mp zero
        exact .inr .zero
      · exact .inl (basic_iff.mpr ⟨u, zero, character, rfl⟩)
    · rw [spelled, List.flatMap_cons, List.flatMap_singleton]
      exact .inr (.pair (high_iff.mpr ⟨u, high, rfl⟩) (low_iff.mpr ⟨v, low, rfl⟩))

theorem toNat_ofNat_of_character {u : UInt16} (character : isHigh u = false ∧ isLow u = false) :
    (Char.ofNat u.toNat).toNat = u.toNat := by
  have bound := u.toNat_lt
  rw [no_surrogate_iff] at character
  apply toNat_ofNat_of_valid
  unfold Nat.isValidChar
  omega

theorem exists_character_of_four {x : List UInt8} (h : PlainOnly x) :
    ∃ c : Char, String.utf8EncodeChar c = x := by
  cases h with
  | zero => exact ⟨'\x00', by decide⟩
  | @four a b c d lead second third fourth least most =>
      unfold Within at lead second third fourth
      generalize hn : (a.toNat - 0xF0) * 0x40000 + (b.toNat - 0x80) * 0x1000 +
        (c.toNat - 0x80) * 0x40 + (d.toNat - 0x80) = n
      have value : (Char.ofNat n).toNat = n := by
        apply toNat_ofNat_of_valid
        unfold Nat.isValidChar
        omega
      refine ⟨.ofNat n, ?_⟩
      rw [utf8EncodeChar_of_beyond (by omega), value, ofNat_eq_of_toNat (b := a) (by omega),
        ofNat_eq_of_toNat (b := b) (by omega), ofNat_eq_of_toNat (b := c) (by omega),
        ofNat_eq_of_toNat (b := d) (by omega)]

/-- The same of plain UTF-8. -/
theorem plainSequence_iff {x : List UInt8} :
    PlainSequence x ↔ ∃ c : Char, String.utf8EncodeChar c = x := by
  constructor
  · rintro (basic | other)
    · obtain ⟨u, nonzero, character, rfl⟩ := basic_iff.mp basic
      have value := toNat_ofNat_of_character character
      refine ⟨.ofNat u.toNat, ?_⟩
      rw [← encode_basic (by omega) (by rw [value]; exact u.toNat_lt),
        units_basic character.1 character.2, List.flatMap_singleton]
    · exact exists_character_of_four other
  · rintro ⟨c, rfl⟩
    have valid : c.toNat < 0xD800 ∨ (0xDFFF < c.toNat ∧ c.toNat < 0x110000) := c.valid
    by_cases zero : c.toNat = 0
    · obtain rfl : c = '\x00' := Char.toNat_inj.mp zero
      exact .inr .zero
    by_cases basic : c.toNat < 0x10000
    · obtain ⟨u, spelled, value, character⟩ | ⟨u, v, spelled, -⟩ := units_cases c
      · rw [← encode_basic zero basic, spelled, List.flatMap_singleton]
        exact .inl (basic_iff.mpr ⟨u, by omega, character, rfl⟩)
      · rw [units, if_pos basic] at spelled
        cases spelled
    · rw [utf8EncodeChar_of_beyond (by omega)]
      refine .inr (.four (within_ofNat ?_ ?_) (within_ofNat ?_ ?_) (within_ofNat ?_ ?_)
        (within_ofNat ?_ ?_) ?_ ?_)
      all_goals
        try rw [UInt8.toNat_ofNat', UInt8.toNat_ofNat']
        omega

/-! ## Payloads -/

/-- What is made up of the sequences of characters is a list of characters. -/
theorem madeOf_iff {P : List UInt8 → Prop} {f : Char → List UInt8}
    (spelled : ∀ x, P x ↔ ∃ c, f c = x) {payload : List UInt8} :
    MadeOf P payload ↔ ∃ s : String, payload = s.toList.flatMap f := by
  constructor
  · rintro ⟨pieces, each, rfl⟩
    induction pieces with
    | nil => exact ⟨"", rfl⟩
    | cons x pieces ih =>
        rw [List.forall_mem_cons] at each
        obtain ⟨c, rfl⟩ := (spelled x).mp each.1
        obtain ⟨s, others⟩ := ih each.2
        refine ⟨.ofList (c :: s.toList), ?_⟩
        rw [String.toList_ofList, List.flatMap_cons, List.flatten_cons, others]
  · rintro ⟨s, rfl⟩
    refine ⟨s.toList.map f, ?_, List.flatMap_def⟩
    intro x hx
    obtain ⟨c, -, rfl⟩ := List.mem_map.mp hx
    exact (spelled _).mpr ⟨c, rfl⟩

/-- The payloads that hold a string are those that are made up of the sequences of one grammar. -/
theorem exists_decode_iff {payload : List UInt8} :
    (∃ s, decode payload = some s) ↔
      MadeOf PlainSequence payload ∨ MadeOf StoredSequence payload := by
  rw [madeOf_iff fun x => plainSequence_iff, madeOf_iff fun x => storedSequence_iff]
  simp only [decode_eq_some_iff, exists_or]
  rfl

/-! ## What can stand around a lead byte -/

/-- A byte of a payload stands in one of the sequences. -/
theorem MadeOf.around {P : List UInt8 → Prop} {before behind : List UInt8} {a : UInt8}
    (h : MadeOf P (before ++ a :: behind)) :
    ∃ u v front rest, P (u ++ a :: v) ∧ before = front ++ u ∧ behind = v ++ rest := by
  obtain ⟨pieces, each, split⟩ := h
  induction pieces generalizing before with
  | nil => simp at split
  | cons x pieces ih =>
      rw [List.forall_mem_cons] at each
      rw [List.flatten_cons, List.append_eq_append_iff] at split
      obtain ⟨u, here, there⟩ | ⟨u, here, there⟩ := split
      -- either the sequence ends before the byte, or the byte is in it
      · cases u with
        | nil =>
            have later : [] ++ a :: behind = pieces.flatten := by simpa using there
            obtain ⟨w, v, front, rest, piece, first, second⟩ := ih each.2 later
            refine ⟨w, v, before ++ front, rest, piece, ?_, second⟩
            rw [List.append_assoc, ← first, List.append_nil]
        | cons b u =>
            obtain ⟨rfl, rfl⟩ : a = b ∧ behind = u ++ pieces.flatten := by simpa using there
            exact ⟨before, u, [], _, here ▸ each.1, rfl, rfl⟩
      · obtain ⟨w, v, front, rest, piece, first, second⟩ := ih each.2 there.symm
        refine ⟨w, v, x ++ front, rest, piece, ?_, second⟩
        rw [here, first, List.append_assoc]

/-- A lead byte opens its sequence, if all bytes behind the first of a sequence are no lead
bytes. -/
theorem eq_nil_of_lead {P : List UInt8 → Prop}
    (tail : ∀ {d : UInt8} {t : List UInt8}, P (d :: t) → ∀ b ∈ t, Within 0x80 0xBF b)
    {a : UInt8} {u v : List UInt8} (h : P (u ++ a :: v)) (lead : 0xC0 ≤ a.toNat) : u = [] := by
  cases u with
  | nil => rfl
  | cons d u =>
      have inner := tail h a (by simp)
      unfold Within at inner
      omega

theorem Basic.tail {a : UInt8} {t : List UInt8} (h : Basic (a :: t)) :
    ∀ b ∈ t, Within 0x80 0xBF b := by
  cases h <;> simp_all

theorem PlainOnly.tail {a : UInt8} {t : List UInt8} (h : PlainOnly (a :: t)) :
    ∀ b ∈ t, Within 0x80 0xBF b := by
  cases h <;> simp_all

theorem Surrogate.tail {low high : Nat} (least : 0x80 ≤ low) (most : high ≤ 0xBF) {a : UInt8}
    {t : List UInt8} (h : Surrogate low high (a :: t)) : ∀ b ∈ t, Within 0x80 0xBF b := by
  obtain ⟨second, third⟩ := h
  have wider : Within 0x80 0xBF _ := ⟨Nat.le_trans least second.1, Nat.le_trans second.2 most⟩
  simp [wider, third]

/-- What the first byte of a sequence of several bytes asks of the second. -/
theorem Basic.follows {a : UInt8} {v : List UInt8} (h : Basic (a :: v)) (lead : 0xC0 ≤ a.toNat) :
    ∃ b w, v = b :: w ∧ Within 0xC2 0xEF a ∧ (a.toNat = 0xE0 → 0xA0 ≤ b.toNat) ∧
      (a.toNat = 0xED → b.toNat ≤ 0x9F) := by
  cases h with
  | one first =>
      unfold Within at first
      omega
  | two first second =>
      unfold Within at first
      exact ⟨_, _, rfl, ⟨by omega, by omega⟩, by omega, by omega⟩
  | three first second third least most =>
      unfold Within at first
      exact ⟨_, _, rfl, ⟨by omega, by omega⟩, least, most⟩

theorem PlainOnly.follows {a : UInt8} {v : List UInt8} (h : PlainOnly (a :: v))
    (lead : 0xC0 ≤ a.toNat) :
    ∃ b w, v = b :: w ∧ Within 0xF0 0xF4 a ∧ (a.toNat = 0xF0 → 0x90 ≤ b.toNat) := by
  cases h with
  | zero => exact absurd lead (by decide)
  | four first second third fourth least most => exact ⟨_, _, rfl, first, least⟩

/-- A lead byte in what only the stored form spells is that of zero, or opens one of the two
surrogates of a pair. -/
theorem StoredOnly.cases_lead {a : UInt8} {u v : List UInt8} (h : StoredOnly (u ++ a :: v))
    (lead : 0xC0 ≤ a.toNat) :
    (a = 0xC0 ∧ v = [0x80]) ∨ (u = [] ∧ ∃ x y, High (a :: x) ∧ Low y ∧ v = x ++ y) ∨
      (High u ∧ Low (a :: v)) := by
  generalize whole : u ++ a :: v = z at h
  cases h with
  | zero =>
      rw [List.append_eq_cons_iff] at whole
      obtain ⟨-, same⟩ | ⟨w, -, same⟩ := whole
      · exact .inl (List.cons.inj same)
      · have last : [(0x80 : UInt8)] = w ++ a :: v := same
        rw [List.singleton_eq_append_iff] at last
        obtain ⟨-, same⟩ | ⟨-, none⟩ := last
        · rw [(List.cons.inj same).1] at lead
          exact absurd lead (by decide)
        · cases none
  | @pair x y first second =>
      rw [List.append_eq_append_iff] at whole
      obtain ⟨w, rfl, behind⟩ | ⟨w, rfl, rfl⟩ := whole
      · cases w with
        | nil =>
            rw [List.nil_append] at behind
            rw [List.append_nil] at first
            exact .inr (.inr ⟨first, behind ▸ second⟩)
        | cons b w =>
            obtain ⟨rfl, rfl⟩ := List.cons.inj behind
            obtain rfl := eq_nil_of_lead (Surrogate.tail (by decide) (by decide)) first lead
            exact .inr (.inl ⟨rfl, w, y, first, second, rfl⟩)
      · obtain rfl := eq_nil_of_lead (Surrogate.tail (by decide) (by decide)) second lead
        rw [List.append_nil]
        exact .inr (.inr ⟨first, second⟩)

/-- Behind a lead byte in plain UTF-8. -/
theorem plain_follows {a b : UInt8} {before behind : List UInt8}
    (h : MadeOf PlainSequence (before ++ a :: b :: behind)) (lead : 0xC0 ≤ a.toNat) :
    0xC2 ≤ a.toNat ∧ (a.toNat = 0xE0 → 0xA0 ≤ b.toNat) ∧ (a.toNat = 0xED → b.toNat ≤ 0x9F) ∧
      (a.toNat = 0xF0 → 0x90 ≤ b.toNat) := by
  obtain ⟨u, v, front, rest, basic | other, -, next⟩ := h.around
  · obtain rfl := eq_nil_of_lead Basic.tail basic lead
    obtain ⟨_, w, rfl, within, least, most⟩ := basic.follows lead
    obtain ⟨rfl, -⟩ := List.cons.inj next
    unfold Within at within
    exact ⟨within.1, least, most, by omega⟩
  · obtain rfl := eq_nil_of_lead PlainOnly.tail other lead
    obtain ⟨_, w, rfl, within, least⟩ := other.follows lead
    obtain ⟨rfl, -⟩ := List.cons.inj next
    unfold Within at within
    exact ⟨by omega, by omega, by omega, least⟩

/-- Behind a lead byte in the stored form.  Where a surrogate starts, the other half of its pair
stands behind it or in front of it. -/
theorem stored_follows {a b : UInt8} {before behind : List UInt8}
    (h : MadeOf StoredSequence (before ++ a :: b :: behind)) (lead : 0xC0 ≤ a.toNat) :
    (a = 0xC0 ∧ b = 0x80) ∨
      (Within 0xC2 0xEF a ∧ (a.toNat = 0xE0 → 0xA0 ≤ b.toNat) ∧
        (a.toNat = 0xED → b.toNat ≤ 0x9F)) ∨
      (a = 0xED ∧ b.toNat ≤ 0xAF ∧ ∃ c y, Low y ∧ c :: y <+: behind) ∨
      (a = 0xED ∧ 0xB0 ≤ b.toNat ∧ ∃ x, High x ∧ x <:+ before) := by
  obtain ⟨u, v, front, rest, basic | other, here, next⟩ := h.around
  · obtain rfl := eq_nil_of_lead Basic.tail basic lead
    obtain ⟨_, w, rfl, within, least, most⟩ := basic.follows lead
    obtain ⟨rfl, -⟩ := List.cons.inj next
    exact .inr (.inl ⟨within, least, most⟩)
  · obtain ⟨rfl, rfl⟩ | ⟨rfl, x, y, first, second, rfl⟩ | ⟨first, second⟩ := other.cases_lead lead
    · exact .inl ⟨rfl, (List.cons.inj next).1⟩
    · obtain @⟨_, c, opened, third⟩ := first
      obtain ⟨rfl, rfl⟩ := List.cons.inj next
      have prefixed : c :: y <+: [c] ++ y ++ rest := List.prefix_append (c :: y) rest
      exact .inr (.inr (.inl ⟨rfl, opened.2, c, y, second, prefixed⟩))
    · obtain @⟨_, c, closed, third⟩ := second
      obtain ⟨rfl, -⟩ := List.cons.inj next
      exact .inr (.inr (.inr ⟨rfl, closed.1, u, first, front, here.symm⟩))

/-! ## Faults -/

/-- A sequence that is longer than it has to be.  The stored form asks for one of these, that of
zero. -/
inductive OverlongSequence : List UInt8 → Prop
  | two {a b : UInt8} : Within 0xC0 0xC1 a → Within 0x80 0xBF b → [a, b] ≠ [0xC0, 0x80] →
      OverlongSequence [a, b]
  | three {b c : UInt8} : Within 0x80 0x9F b → Within 0x80 0xBF c → OverlongSequence [0xE0, b, c]
  | four {b c d : UInt8} : Within 0x80 0x8F b → Within 0x80 0xBF c → Within 0x80 0xBF d →
      OverlongSequence [0xF0, b, c, d]

/-- The payload has a fault that no other part of it can make good: the two forms are mixed, a
surrogate has no other half where that would have to stand, or a sequence is too long.  Two
surrogates in the wrong order are without their other halves as well. -/
inductive Faulty (payload : List UInt8) : Prop
  | mixed {x y : List UInt8} : PlainOnly x → x <:+: payload → StoredOnly y → y <:+: payload →
      Faulty payload
  | loneHigh {before x behind : List UInt8} : payload = before ++ (x ++ behind) → High x →
      (∀ y, Low y → ¬ y <+: behind) → Faulty payload
  | loneLow {before y behind : List UInt8} : payload = before ++ (y ++ behind) → Low y →
      (∀ x, High x → ¬ x <:+ before) → Faulty payload
  | overlong {x : List UInt8} : OverlongSequence x → x <:+: payload → Faulty payload

section Faults

variable {payload : List UInt8}

/-- There are no surrogates in plain UTF-8. -/
theorem not_plain_of_surrogate {low high : Nat} (least : 0xA0 ≤ low) {x before behind : List UInt8}
    (h : Surrogate low high x) : ¬ MadeOf PlainSequence (before ++ (x ++ behind)) := by
  intro plain
  obtain ⟨second, third⟩ := h
  obtain ⟨-, -, most, -⟩ := plain_follows plain (by decide)
  have small := most rfl
  unfold Within at second
  omega

theorem not_plain_of_storedOnly {y : List UInt8} (h : StoredOnly y) (within : y <:+: payload) :
    ¬ MadeOf PlainSequence payload := by
  obtain ⟨before, behind, rfl⟩ := within
  rw [List.append_assoc]
  cases h with
  | zero =>
      intro plain
      exact absurd (plain_follows plain (by decide)).1 (by decide)
  | pair first second =>
      rw [List.append_assoc]
      exact not_plain_of_surrogate (by decide) first

theorem not_stored_of_plainOnly {x : List UInt8} (h : PlainOnly x) (within : x <:+: payload) :
    ¬ MadeOf StoredSequence payload := by
  intro stored
  obtain ⟨s, rfl⟩ := (madeOf_iff fun _ => storedSequence_iff).mp stored
  -- the first byte of such a sequence does not occur in the stored form
  have shared : ∀ b ∈ x, Shared b := fun b mem => shared_of_mem_encode (within.subset mem)
  cases h with
  | zero => exact (shared 0x00 List.mem_cons_self).1 rfl
  | four first => exact (shared _ List.mem_cons_self).2 first

theorem not_stored_of_loneHigh {before x behind : List UInt8} (h : High x)
    (lone : ∀ y, Low y → ¬ y <+: behind) : ¬ MadeOf StoredSequence (before ++ (x ++ behind)) := by
  intro stored
  obtain ⟨second, third⟩ := h
  unfold Within at second
  obtain ⟨other, -⟩ | ⟨-, -, most⟩ | ⟨-, -, c, y, closes, next⟩ | ⟨-, least, -⟩ :=
    stored_follows stored (by decide)
  · cases other
  · have small := most rfl
    omega
  · exact lone y closes (List.cons_prefix_cons.mp next).2
  · omega

theorem not_stored_of_loneLow {before y behind : List UInt8} (h : Low y)
    (lone : ∀ x, High x → ¬ x <:+ before) : ¬ MadeOf StoredSequence (before ++ (y ++ behind)) := by
  intro stored
  obtain ⟨second, third⟩ := h
  unfold Within at second
  obtain ⟨other, -⟩ | ⟨-, -, most⟩ | ⟨-, most, -⟩ | ⟨-, -, x, opens, here⟩ :=
    stored_follows stored (by decide)
  · cases other
  · have small := most rfl
    omega
  · omega
  · exact lone x opens here

theorem not_plain_of_overlong {x : List UInt8} (h : OverlongSequence x) (within : x <:+: payload) :
    ¬ MadeOf PlainSequence payload := by
  intro plain
  obtain ⟨before, behind, rfl⟩ := within
  rw [List.append_assoc] at plain
  cases h with
  | two first second =>
      unfold Within at first
      have least := (plain_follows plain (by omega)).1
      omega
  | three second third =>
      unfold Within at second
      have least := (plain_follows plain (by decide)).2.1 rfl
      omega
  | four second third fourth =>
      unfold Within at second
      have least := (plain_follows plain (by decide)).2.2.2 rfl
      omega

theorem not_stored_of_overlong {x : List UInt8} (h : OverlongSequence x) (within : x <:+: payload) :
    ¬ MadeOf StoredSequence payload := by
  intro stored
  obtain ⟨before, behind, rfl⟩ := within
  rw [List.append_assoc] at stored
  cases h with
  | two first second other =>
      unfold Within at first
      obtain ⟨rfl, rfl⟩ | ⟨within, -⟩ | ⟨rfl, -⟩ | ⟨rfl, -⟩ := stored_follows stored (by omega)
      · exact other rfl
      · unfold Within at within
        omega
      · exact absurd first (by decide)
      · exact absurd first (by decide)
  | three second third =>
      unfold Within at second
      obtain ⟨other, -⟩ | ⟨-, least, -⟩ | ⟨other, -⟩ | ⟨other, -⟩ :=
        stored_follows stored (by decide)
      · cases other
      · have large := least rfl
        omega
      · cases other
      · cases other
  | four second third fourth =>
      obtain ⟨other, -⟩ | ⟨within, -⟩ | ⟨other, -⟩ | ⟨other, -⟩ :=
        stored_follows stored (by decide)
      · cases other
      · exact absurd within.2 (by decide)
      · cases other
      · cases other

/-- Faults rule out both readings, wherever in the payload they are. -/
theorem decode_of_faulty (h : Faulty payload) : decode payload = none := by
  have neither : ¬ MadeOf PlainSequence payload ∧ ¬ MadeOf StoredSequence payload := by
    cases h with
    | mixed first here second there =>
        exact ⟨not_plain_of_storedOnly second there, not_stored_of_plainOnly first here⟩
    | loneHigh split half lone =>
        rw [split]
        exact ⟨not_plain_of_surrogate (by decide) half, not_stored_of_loneHigh half lone⟩
    | loneLow split half lone =>
        rw [split]
        exact ⟨not_plain_of_surrogate (by decide) half, not_stored_of_loneLow half lone⟩
    | overlong long within =>
        exact ⟨not_plain_of_overlong long within, not_stored_of_overlong long within⟩
  rw [Option.eq_none_iff_forall_ne_some]
  intro s held
  rcases exists_decode_iff.mp ⟨s, held⟩ with plain | stored
  · exact neither.1 plain
  · exact neither.2 stored

end Faults

end JvmClass.Text
