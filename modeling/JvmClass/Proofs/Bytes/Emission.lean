import JvmClass.Bytes.Writer
import JvmClass.Proofs.Bytes.Grammar

/-!
# JvmClass.Proofs.Bytes.Emission — the bytes that a writer hands over.

`Emits w bs` says that a writer succeeds on an output without bound and leaves exactly `bs` in it.
A writer could look at what the output holds already; those of this library do not, and `Plain`
says so: such a writer is `bytes bs` for some text, or `bytes bs` and then the refusal of a count.
For plain writers, what a sequence emits is what its steps emit, one behind the other.
-/

namespace JvmClass

namespace Writer

/-- The step succeeds on an output without bound and leaves exactly these bytes in it. -/
def Emits (w : Writer Unit) (bs : Bytes) : Prop :=
  w .unbounded = .ok () ⟨bs.toArray, none⟩

/-- The step hands over a text that does not depend on the output, and then ends or refuses a
count. -/
class Plain (w : Writer Unit) : Prop where
  shape : (∃ bs, w = bytes bs) ∨ ∃ bs o, w = bytes bs >>= fun _ => throw (.overflow o)

/-! ## Texts -/

theorem bytes_nil : bytes [] = pure () := by
  funext s
  obtain ⟨written, capacity⟩ := s
  cases capacity <;> simp [bytes, pure, EStateM.pure]

theorem written_append (written : Array UInt8) (a b : Bytes) :
    written ++ (a ++ b) = written ++ a ++ b := by
  apply Array.ext'
  simp

/-- A text can be handed over in two parts: the second part finds what room the first has left. -/
theorem bytes_append (a b : Bytes) : bytes (a ++ b) = bytes a >>= fun _ => bytes b := by
  funext s
  obtain ⟨written, capacity⟩ := s
  cases capacity with
  | none => simp only [bytes, bind, EStateM.bind, written_append]
  | some limit =>
      -- either the first part fits, or the output is full before the second one
      by_cases first : a.length ≤ limit - written.size
      · have room : limit - (written ++ a).size = limit - written.size - a.length := by
          rw [← Array.length_toList, Array.toList_appendList, List.length_append,
            Array.length_toList]
          omega
        have both : (a ++ b).length ≤ limit - written.size ↔
            b.length ≤ limit - written.size - a.length := by
          rw [List.length_append]
          omega
        simp only [bytes, bind, EStateM.bind, first, if_true, room, both, List.take_append,
          List.take_of_length_le first, written_append]
      · have full : ¬ (a ++ b).length ≤ limit - written.size := by
          rw [List.length_append]
          omega
        simp only [bytes, bind, EStateM.bind, first, full, if_false]
        rw [List.take_append_of_le_length (by omega)]

theorem emits_bytes_iff {a b : Bytes} : Emits (bytes a) b ↔ b = a := by
  simp only [Emits, Sink.unbounded, bytes_unbounded, EStateM.Result.ok.injEq, Sink.mk.injEq,
    and_true, true_and]
  constructor
  · intro h
    simpa using h.symm
  · rintro rfl
    simp

theorem not_emits_refusal {a b : Bytes} {o : Overflow} :
    ¬ Emits (bytes a >>= fun _ => throw (.overflow o)) b := by
  intro h
  cases h

/-- A plain writer that emits a text is the handing over of that text, on every output. -/
theorem emits_iff {w : Writer Unit} [plain : Plain w] {bs : Bytes} :
    Emits w bs ↔ w = bytes bs := by
  constructor
  · intro h
    rcases plain.shape with ⟨a, rfl⟩ | ⟨a, o, rfl⟩
    · rw [emits_bytes_iff.mp h]
    · exact absurd h not_emits_refusal
  · rintro rfl
    exact emits_bytes_iff.mpr rfl

/-- A writer emits one text at most. -/
theorem Emits.unique {w : Writer Unit} {a b : Bytes} (ha : Emits w a) (hb : Emits w b) : a = b := by
  have same := ha.symm.trans hb
  simpa using same

/-! ## Sequences -/

instance plain_bytes (bs : Bytes) : Plain (bytes bs) := ⟨.inl ⟨bs, rfl⟩⟩

instance plain_pure : Plain (pure ()) := ⟨.inl ⟨[], bytes_nil.symm⟩⟩

instance plain_overflow (o : Overflow) : Plain (throw (.overflow o)) :=
  ⟨.inr ⟨[], o, by rw [bytes_nil, pure_bind]⟩⟩

instance Plain.bind (w w' : Writer Unit) [first : Plain w] [second : Plain w'] :
    Plain (w >>= fun _ => w') := by
  rcases first.shape with ⟨a, rfl⟩ | ⟨a, o, rfl⟩
  · rcases second.shape with ⟨b, rfl⟩ | ⟨b, o, rfl⟩
    · exact ⟨.inl ⟨a ++ b, (bytes_append a b).symm⟩⟩
    · exact ⟨.inr ⟨a ++ b, o, by rw [bytes_append, bind_assoc]⟩⟩
  · -- what follows a refusal is not reached
    exact ⟨.inr ⟨a, o, by rw [bind_assoc]; rfl⟩⟩

theorem emits_pure_iff {bs : Bytes} : Emits (pure ()) bs ↔ bs = [] := by
  rw [← bytes_nil]
  exact emits_bytes_iff

/-- A sequence emits what its steps emit, one behind the other. -/
theorem emits_bind_iff {w w' : Writer Unit} [first : Plain w] [second : Plain w'] {bs : Bytes} :
    Emits (w >>= fun _ => w') bs ↔ ∃ a b, Emits w a ∧ Emits w' b ∧ bs = a ++ b := by
  constructor
  · intro h
    rcases first.shape with ⟨a, rfl⟩ | ⟨a, o, rfl⟩
    · rcases second.shape with ⟨b, rfl⟩ | ⟨b, o, rfl⟩
      · rw [← bytes_append] at h
        exact ⟨a, b, emits_bytes_iff.mpr rfl, emits_bytes_iff.mpr rfl, emits_bytes_iff.mp h⟩
      · rw [← bind_assoc, ← bytes_append] at h
        exact absurd h not_emits_refusal
    · rw [bind_assoc] at h
      exact absurd h not_emits_refusal
  · rintro ⟨a, b, ha, hb, rfl⟩
    -- each step is the handing over of its text, so the sequence is that of both
    rw [emits_iff] at ha hb
    rw [ha, hb, ← bytes_append]
    exact emits_bytes_iff.mpr rfl

instance plain_forM {α : Type} (f : α → Writer Unit) [each : ∀ a, Plain (f a)] (as : List α) :
    Plain (as.forM f) := by
  induction as with
  | nil => exact plain_pure
  | cons a as ih => exact Plain.bind (f a) (as.forM f)

theorem emits_forM_iff {α : Type} {f : α → Writer Unit} [each : ∀ a, Plain (f a)] {as : List α}
    {bs : Bytes} : Emits (as.forM f) bs ↔ Series (fun a => Emits (f a)) as bs := by
  induction as generalizing bs with
  | nil => exact emits_pure_iff.trans Series.nil_iff.symm
  | cons a as ih =>
      show Emits (f a >>= fun _ => as.forM f) bs ↔ _
      rw [emits_bind_iff, Series.cons_iff]
      simp only [ih]

/-! ## Words and counts -/

instance plain_byte (b : UInt8) : Plain (byte b) := plain_bytes [b]

instance plain_word16 (w : UInt16) : Plain (word16 w) := plain_bytes _

instance plain_word32 (w : UInt32) : Plain (word32 w) := plain_bytes _

instance plain_word64 (w : UInt64) : Plain (word64 w) := plain_bytes _

theorem emits_byte_iff {b : UInt8} {bs : Bytes} : Emits (byte b) bs ↔ bs = [b] := emits_bytes_iff

theorem emits_word16_iff {w : UInt16} {bs : Bytes} : Emits (word16 w) bs ↔ bs = .ofWord16 w :=
  emits_bytes_iff

theorem emits_word32_iff {w : UInt32} {bs : Bytes} : Emits (word32 w) bs ↔ bs = .ofWord32 w :=
  emits_bytes_iff

theorem emits_word64_iff {w : UInt64} {bs : Bytes} : Emits (word64 w) bs ↔ bs = .ofWord64 w :=
  emits_bytes_iff

/-- A step that is taken under a condition and refuses a count otherwise. -/
instance plain_guard (c : Prop) [Decidable c] (w : Writer Unit) [step : Plain w] (o : Overflow) :
    Plain (if c then w else throw (.overflow o)) := by
  split
  · exact step
  · exact plain_overflow o

theorem emits_guard_iff {c : Prop} [Decidable c] {w : Writer Unit} {o : Overflow} {bs : Bytes} :
    Emits (if c then w else throw (.overflow o)) bs ↔ c ∧ Emits w bs := by
  split
  · rename_i h
    exact (and_iff_right h).symm
  · rename_i h
    constructor
    · intro emitted
      cases emitted
    · exact fun both => absurd both.1 h

instance plain_count8 (n : Nat) : Plain (count8 n) := plain_guard _ _ _

instance plain_count16 (n : Nat) : Plain (count16 n) := plain_guard _ _ _

instance plain_count32 (n : Nat) : Plain (count32 n) := plain_guard _ _ _

theorem emits_count8_iff {n : Nat} {bs : Bytes} :
    Emits (count8 n) bs ↔ n < 0x100 ∧ bs = [.ofNat n] :=
  emits_guard_iff.trans (and_congr_right fun _ => emits_byte_iff)

theorem emits_count16_iff {n : Nat} {bs : Bytes} :
    Emits (count16 n) bs ↔ n < 0x10000 ∧ bs = .ofWord16 (.ofNat n) :=
  emits_guard_iff.trans (and_congr_right fun _ => emits_word16_iff)

theorem emits_count32_iff {n : Nat} {bs : Bytes} :
    Emits (count32 n) bs ↔ n < 0x100000000 ∧ bs = .ofWord32 (.ofNat n) :=
  emits_guard_iff.trans (and_congr_right fun _ => emits_word32_iff)

/-- A count and the elements behind it. -/
theorem emits_table_iff {α : Type} {f : α → Writer Unit} [each : ∀ a, Plain (f a)] {as : List α}
    {bs : Bytes} :
    Emits (count16 as.length >>= fun _ => as.forM f) bs ↔ Table (fun a => Emits (f a)) as bs := by
  rw [emits_bind_iff, Table]
  simp only [emits_count16_iff, emits_forM_iff]
  constructor
  · intro given
    rcases given with ⟨_, body, ⟨small, rfl⟩, h, rfl⟩
    exact ⟨small, body, h, rfl⟩
  · rintro ⟨small, body, h, rfl⟩
    exact ⟨_, body, ⟨small, rfl⟩, h, rfl⟩

theorem emits_shortTable_iff {α : Type} {f : α → Writer Unit} [each : ∀ a, Plain (f a)]
    {as : List α} {bs : Bytes} :
    Emits (count8 as.length >>= fun _ => as.forM f) bs ↔
      ShortTable (fun a => Emits (f a)) as bs := by
  rw [emits_bind_iff, ShortTable]
  simp only [emits_count8_iff, emits_forM_iff]
  constructor
  · intro given
    rcases given with ⟨_, body, ⟨small, rfl⟩, h, rfl⟩
    exact ⟨small, body, h, rfl⟩
  · rintro ⟨small, body, h, rfl⟩
    exact ⟨_, body, ⟨small, rfl⟩, h, rfl⟩

end Writer

end JvmClass
