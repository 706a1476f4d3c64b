import JvmClass.Pool.Read
import JvmClass.Pool.Write
import JvmClass.Proofs.Bytes.Emission
import JvmClass.Proofs.Bytes.Reading
import JvmClass.Proofs.Text.Payload

/-!
# JvmClass.Proofs.Pool.Constants — the bytes that stand for a constant.

A constant is read from the bytes that are written for it, with one exception: the text of a string
constant may lie in a file as plain UTF-8, and is written in the stored form whatever form it was
read from.  `Entry.Stored` is the relation that reading goes by.  It parts from what is written at
the payloads of string constants only, and `Entry.emits_iff_of_stored` says at which of them.
-/

namespace JvmClass

open Writer

/-! ## Writing -/

instance Entry.plain_writeText (text : String) : Plain (Entry.writeText text) := by
  unfold Entry.writeText
  infer_instance

instance Entry.plain_writePair (first second : UInt16) : Plain (Entry.writePair first second) := by
  unfold Entry.writePair
  infer_instance

instance Entry.plain_writeContents (e : Entry) : Plain e.writeContents := by
  cases e <;> unfold Entry.writeContents <;> infer_instance

instance Entry.plain (e : Entry) : Plain e.write := by
  unfold Entry.write
  split <;> infer_instance

namespace Entry

theorem emits_writePair_iff {first second : UInt16} {bs : Bytes} :
    Emits (writePair first second) bs ↔ bs = .ofWord16 first ++ .ofWord16 second := by
  unfold writePair
  rw [emits_bind_iff]
  simp only [emits_word16_iff, exists_and_left, exists_eq_left]

theorem emits_writeText_iff {text : String} {bs : Bytes} :
    Emits (writeText text) bs ↔ (Text.encode text).length < 0x10000 ∧
      bs = .ofWord16 (.ofNat (Text.encode text).length) ++ Text.encode text := by
  unfold writeText
  rw [emits_bind_iff]
  simp only [emits_count16_iff, emits_bytes_iff]
  constructor
  · intro h
    rcases h with ⟨_, _, ⟨short, rfl⟩, rfl, rfl⟩
    exact ⟨short, rfl⟩
  · rintro ⟨short, rfl⟩
    exact ⟨_, _, ⟨short, rfl⟩, rfl, rfl⟩

theorem emits_write_iff {e : Entry} {tag : Tag} {bs : Bytes} (h : e.tag? = some tag) :
    Emits e.write bs ↔
      ∃ contents, Emits e.writeContents contents ∧ bs = tag.number :: contents := by
  have shape : e.write = (do
      Writer.byte tag.number
      e.writeContents) := by
    unfold write
    rw [h]
  rw [shape, emits_bind_iff]
  simp only [emits_byte_iff, exists_and_left, exists_eq_left, List.cons_append, List.nil_append]

/-! ## Reading -/

/-- The bytes that contents are read from.  A text has its size in front of it, and any form that
decodes to it will do. -/
def StoredContents : Entry → Bytes → Prop
  | utf8 text, bs => ∃ payload, payload.length < 0x10000 ∧ Text.decode payload = some text ∧
    bs = .ofWord16 (.ofNat payload.length) ++ payload
  | e, bs => Emits e.writeContents bs

/-- The bytes that a constant is read from. -/
def Stored (e : Entry) (bs : Bytes) : Prop :=
  ∃ tag contents, e.tag? = some tag ∧ e.StoredContents contents ∧ bs = tag.number :: contents

/-- The contents of a constant of the given kind. -/
def StoredAs (tag : Tag) (e : Entry) (bs : Bytes) : Prop :=
  e.tag? = some tag ∧ e.StoredContents bs

theorem reads_of_part {α : Type} {d : Decoder α} {R : α → Bytes → Prop} {tag : Tag} {f : α → Entry}
    (h : Reads d R) (only : ∀ e : Entry, e.tag? = some tag ↔ ∃ a, f a = e)
    (stored : ∀ a bs, R a bs ↔ (f a).StoredContents bs) : Reads (f <$> d) (StoredAs tag) := by
  refine (h.map f).congr fun e bs => ?_
  rw [StoredAs, only]
  constructor
  · rintro ⟨a, ha, rfl⟩
    exact ⟨⟨a, rfl⟩, (stored a bs).mp ha⟩
  · rintro ⟨⟨a, rfl⟩, ha⟩
    exact ⟨a, (stored a bs).mpr ha, rfl⟩

/-- Constants that are made up of two slot numbers. -/
theorem reads_of_pair {tag : Tag} {f : UInt16 → UInt16 → Entry}
    (only : ∀ e : Entry, e.tag? = some tag ↔ ∃ first second, f first second = e)
    (stored : ∀ first second, StoredContents (f first second) = Emits (writePair first second)) :
    Reads (f <$> Decoder.word16 <*> Decoder.word16) (StoredAs tag) := by
  refine ((Reads.word16.map f).seq .word16).congr fun e bs => ?_
  rw [StoredAs, only]
  constructor
  · intro h
    rcases h with ⟨_, second, _, _, ⟨first, rfl, rfl⟩, rfl, rfl, rfl⟩
    refine ⟨⟨first, second, rfl⟩, ?_⟩
    rw [stored]
    exact emits_writePair_iff.mpr rfl
  · intro h
    rcases h with ⟨⟨first, second, rfl⟩, written⟩
    rw [stored] at written
    exact ⟨_, second, _, _, ⟨first, rfl, rfl⟩, rfl, rfl, emits_writePair_iff.mp written⟩

theorem reads_readText :
    Reads readText fun text bs => ∃ payload, payload.length < 0x10000 ∧
      Text.decode payload = some text ∧ bs = .ofWord16 (.ofNat payload.length) ++ payload := by
  unfold readText
  refine (Reads.word16.bind fun size => (Reads.take size.toNat).bind
    (S := fun payload text bs => Text.decode payload = some text ∧ bs = [])
    fun payload => ?_).congr fun text bs => ?_
  · cases decoded : Text.decode payload with
    | none => exact (Reads.fail .malformedText).congr fun _ _ => by simp
    | some found => exact (Reads.pure found).congr fun _ _ => by simp [eq_comm]
  · simp only [exists_and_left, exists_eq_left, exists_eq_right_right', and_assoc, List.append_nil]
    constructor
    · intro taken
      rcases taken with ⟨size, payload, fits, decoded, rfl⟩
      refine ⟨payload, ?_, decoded, ?_⟩
      · rw [fits]
        exact size.toNat_lt
      · rw [fits, UInt16.ofNat_toNat]
    · intro stored
      rcases stored with ⟨payload, short, decoded, rfl⟩
      refine ⟨.ofNat payload.length, payload, ?_, decoded, rfl⟩
      exact (UInt16.toNat_ofNat_of_lt short).symm

/-- The contents of each kind are read from the bytes that they may be stored in. -/
theorem reads_readContents (tag : Tag) : Reads (readContents tag) (StoredAs tag) := by
  cases tag with
  | utf8 =>
      refine reads_of_part reads_readText (fun e => ?_) fun _ _ => Iff.rfl
      cases e <;> simp [tag?]
  | classRef | string | methodType | moduleRef | packageRef =>
      refine reads_of_part .word16 (fun e => ?_) fun _ _ => emits_word16_iff.symm
      cases e <;> simp [tag?]
  | float =>
      refine reads_of_part .word32 (fun e => ?_) fun _ _ => emits_word32_iff.symm
      cases e <;> simp [tag?]
  | double =>
      refine reads_of_part .word64 (fun e => ?_) fun _ _ => emits_word64_iff.symm
      cases e <;> simp [tag?]
  | integer =>
      show Reads (Decoder.word32 >>= fun w => pure (integer (.ofUInt32 w))) _
      rw [← map_eq_pure_bind]
      refine reads_of_part .word32 (fun e => ?_) fun _ _ => emits_word32_iff.symm
      cases e with
      | integer value => exact ⟨fun _ => ⟨value.toUInt32, rfl⟩, fun _ => rfl⟩
      | _ => simp [tag?]
  | long =>
      show Reads (Decoder.word64 >>= fun w => pure (long (.ofUInt64 w))) _
      rw [← map_eq_pure_bind]
      refine reads_of_part .word64 (fun e => ?_) fun _ _ => emits_word64_iff.symm
      cases e with
      | long value => exact ⟨fun _ => ⟨value.toUInt64, rfl⟩, fun _ => rfl⟩
      | _ => simp [tag?]
  | fieldRef | methodRef | interfaceMethodRef | nameAndType | dynamic | invokeDynamic =>
      refine reads_of_pair (fun e => ?_) fun _ _ => rfl
      cases e <;> simp [tag?]
  | methodHandle =>
      refine ((Reads.byte.map methodHandle).seq .word16).congr fun e bs => ?_
      constructor
      · intro h
        rcases h with ⟨_, target, _, _, ⟨kind, rfl, rfl⟩, rfl, rfl, rfl⟩
        refine ⟨rfl, emits_bind_iff.mpr ⟨_, _, emits_byte_iff.mpr rfl, ?_, rfl⟩⟩
        exact emits_word16_iff.mpr rfl
      · rintro ⟨tagged, written⟩
        cases e <;> cases tagged
        obtain ⟨_, _, first, second, rfl⟩ := emits_bind_iff.mp written
        exact ⟨_, _, _, _, ⟨_, emits_byte_iff.mp first, rfl⟩, emits_word16_iff.mp second, rfl, rfl⟩

/-- Constants are read from the bytes that they may be stored in. -/
theorem reads : Reads Entry.read Stored := by
  unfold Entry.read
  refine (Reads.byte.bind (S := fun number e bs => ∃ tag, number = tag.number ∧ StoredAs tag e bs)
    fun number => ?_).congr fun e bs => ?_
  · cases known : Tag.ofNumber? number with
    | none =>
        refine (Reads.fail _).congr fun e bs => ⟨False.elim, ?_⟩
        rintro ⟨tag, rfl, -⟩
        rw [Tag.ofNumber?_number] at known
        cases known
    | some tag =>
        have number_eq := Tag.ofNumber?_eq_some_iff.mp known
        refine (reads_readContents tag).congr fun e bs => ⟨fun h => ⟨tag, number_eq, h⟩, ?_⟩
        rintro ⟨tag', same, h⟩
        rw [same, Tag.ofNumber?_number, Option.some.injEq] at known
        rwa [← known]
  constructor
  · intro taken
    rcases taken with ⟨_, _, contents, rfl, ⟨tag, rfl, tagged, stored⟩, rfl⟩
    exact ⟨tag, contents, tagged, stored, rfl⟩
  · intro taken
    rcases taken with ⟨tag, contents, tagged, stored, rfl⟩
    exact ⟨tag.number, _, contents, rfl, ⟨tag, rfl, tagged, stored⟩, rfl⟩

/-! ## What is stored and what is written -/

theorem stored_of_emits {e : Entry} {bs : Bytes} (constant : e ≠ unusable) (h : Emits e.write bs) :
    e.Stored bs := by
  cases e with
  | unusable => exact absurd rfl constant
  -- only texts are stored in more ways than they are written
  | utf8 text =>
      obtain ⟨contents, written, rfl⟩ := (emits_write_iff rfl).mp h
      obtain ⟨short, rfl⟩ := emits_writeText_iff.mp written
      exact ⟨.utf8, _, rfl, ⟨_, short, Text.decode_encode text, rfl⟩, rfl⟩
  | _ =>
      obtain ⟨contents, written, rfl⟩ := (emits_write_iff rfl).mp h
      exact ⟨_, contents, rfl, written, rfl⟩

theorem ne_unusable_of_stored {e : Entry} {bs : Bytes} (h : e.Stored bs) : e ≠ unusable := by
  rintro rfl
  obtain ⟨_, _, tagged, -⟩ := h
  cases tagged

/-- All bytes of the payload are shared by the two forms of a text, if the constant is a string.
The first three bytes are the number of the kind and the size of the payload. -/
def AsWritten : Entry → Bytes → Prop
  | utf8 _, bs => ∀ b ∈ bs.drop 3, Text.Shared b
  | _, _ => True

/-- A constant is written in the bytes that it was read from just if its text is in the stored
form. -/
theorem emits_iff_of_stored {e : Entry} {bs : Bytes} (h : e.Stored bs) :
    Emits e.write bs ↔ e.AsWritten bs := by
  obtain ⟨tag, contents, tagged, stored, rfl⟩ := h
  rw [emits_write_iff tagged]
  cases e with
  | utf8 text =>
      obtain ⟨payload, short, decoded, rfl⟩ := stored
      show _ ↔ ∀ b ∈ payload, Text.Shared b
      rw [← Text.eq_encode_iff_of_decode decoded]
      constructor
      · intro taken
        rcases taken with ⟨contents, written, same⟩
        obtain ⟨-, rfl⟩ := emits_writeText_iff.mp written
        -- the sizes take two bytes each, so the payloads agree too
        exact (List.append_inj (List.cons.inj same).2 rfl).2
      · intro same
        refine ⟨_, emits_writeText_iff.mpr ⟨?_, rfl⟩, ?_⟩
        · rwa [← same]
        · rw [← same]
  | _ => exact ⟨fun _ => trivial, fun _ => ⟨contents, stored, rfl⟩⟩

end Entry

end JvmClass
