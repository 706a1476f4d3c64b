import JvmClass.Attribute.Write
import JvmClass.Proofs.Annotation.Emission

/-!
# JvmClass.Proofs.Attribute.Emission — the bytes of attributes.

The header of an attribute is settled before anything is written: when the length of the payload
fits its field, what is emitted is the name, the length and the payload, and otherwise nothing is.
So attributes are plain writers although they inspect their payload first.
-/

namespace JvmClass

open Writer

/-! ## Tables -/

instance plain_writeIndices (indices : List UInt16) : Plain (writeIndices indices) := by
  unfold writeIndices
  infer_instance

instance InnerClass.plain (c : InnerClass) : Plain c.write := by
  unfold InnerClass.write
  infer_instance

instance Handler.plain (h : Handler) : Plain h.write := by
  unfold Handler.write
  infer_instance

theorem emits_writeIndices_iff {indices : List UInt16} {bs : Bytes} :
    Emits (writeIndices indices) bs ↔ Table (fun w x => x = .ofWord16 w) indices bs := by
  unfold writeIndices
  rw [emits_table_iff]
  exact Table.congr fun _ _ _ => emits_word16_iff

/-! ## Attributes -/

theorem Attribute.writeAll_eq (attributes : List Attribute) :
    Attribute.writeAll attributes = attributes.forM Attribute.write := by
  induction attributes with
  | nil => rfl
  | cons a attributes ih =>
      rw [Attribute.writeAll, ih]
      rfl

/-- An attribute whose length fits its field is written behind that length. -/
theorem Attribute.write_of_ok {a : Attribute} {length : UInt32}
    (fits : a.payload.checkedLength = .ok length) :
    a.write = (do
      Writer.word16 a.name
      Writer.word32 length
      a.payload.write) := by
  obtain ⟨name, payload⟩ := a
  rw [Attribute.write, Payload.writeLength, show payload.checkedLength = .ok length from fits]
  rfl

/-- Nothing is written of an attribute whose length does not fit. -/
theorem Attribute.write_of_error {a : Attribute} {overflow : Overflow}
    (large : a.payload.checkedLength = .error overflow) :
    a.write = throw (.overflow overflow) := by
  obtain ⟨name, payload⟩ := a
  rw [Attribute.write, Payload.writeLength, show payload.checkedLength = .error overflow from large]
  rfl

mutual

theorem Attribute.plain_write : ∀ a : Attribute, Plain a.write
  | ⟨name, payload⟩ => by
    have := payload.plain_write
    -- the refusal of a length comes before anything is written
    cases length : payload.checkedLength with
    | ok length' =>
        rw [Attribute.write_of_ok length]
        exact Plain.bind (Writer.word16 name) (Writer.word32 length' >>= fun _ => payload.write)
    | error overflow =>
        rw [Attribute.write_of_error length]
        infer_instance

theorem Payload.plain_write : ∀ p : Payload, Plain p.write
  | .constantValue _ | .annotations _ | .typeAnnotations _ | .parameterAnnotations _
  | .annotationDefault _ | .nestHost _ | .nestMembers _ | .enclosingMethod _ _ | .exceptions _
  | .innerClasses _ | .raw _ => by
    unfold Payload.write
    infer_instance
  | .code body => by
    have := body.plain_write
    unfold Payload.write
    infer_instance

theorem CodeBody.plain_write : ∀ b : CodeBody, Plain b.write
  | ⟨maxStack, maxLocals, code, handlers, attributes⟩ => by
    have := Attribute.plain_writeAll attributes
    unfold CodeBody.write
    infer_instance

theorem Attribute.plain_writeAll : ∀ as : List Attribute, Plain (Attribute.writeAll as)
  | [] => plain_pure
  | a :: rest => by
    have := a.plain_write
    have := Attribute.plain_writeAll rest
    unfold Attribute.writeAll
    infer_instance

end

instance Attribute.plain (a : Attribute) : Plain a.write := a.plain_write

instance Payload.plain (p : Payload) : Plain p.write := p.plain_write

instance Attribute.plain_writeTable (table : List Attribute) :
    Plain (Attribute.writeTable table) := by
  unfold Attribute.writeTable
  have := Attribute.plain_writeAll table
  infer_instance

theorem Attribute.emits_write_iff {a : Attribute} {bs : Bytes} :
    Emits a.write bs ↔ ∃ length body, a.payload.checkedLength = .ok length ∧
      Emits a.payload.write body ∧ bs = .ofWord16 a.name ++ (.ofWord32 length ++ body) := by
  cases h : a.payload.checkedLength with
  | error overflow =>
      rw [write_of_error h]
      constructor
      · intro emitted
        cases emitted
      · rintro ⟨_, _, fits, -⟩
        cases fits
  | ok length =>
      rw [write_of_ok h, emits_bind_iff]
      simp only [emits_bind_iff, emits_word16_iff, emits_word32_iff]
      constructor
      · intro given
        rcases given with ⟨_, _, rfl, ⟨_, body, rfl, written, rfl⟩, rfl⟩
        exact ⟨length, body, rfl, written, rfl⟩
      · intro given
        rcases given with ⟨_, body, fits, written, rfl⟩
        cases fits
        exact ⟨_, _, rfl, ⟨_, body, rfl, written, rfl⟩, rfl⟩

theorem Attribute.emits_writeTable_iff {table : List Attribute} {bs : Bytes} :
    Emits (Attribute.writeTable table) bs ↔
      Table (fun a => Emits (Attribute.write a)) table bs := by
  unfold Attribute.writeTable
  rw [Attribute.writeAll_eq, emits_table_iff]

theorem InnerClass.emits_write_iff {c : InnerClass} {bs : Bytes} :
    Emits c.write bs ↔ bs = .ofWord16 c.inner ++ (.ofWord16 c.outer ++ (.ofWord16 c.name ++
      .ofWord16 c.flags.bits)) := by
  simp only [InnerClass.write, emits_bind_iff, emits_word16_iff, exists_and_left, exists_eq_left]

theorem Handler.emits_write_iff {h : Handler} {bs : Bytes} :
    Emits h.write bs ↔ bs = .ofWord16 h.startPc ++ (.ofWord16 h.endPc ++ (.ofWord16 h.handlerPc ++
      .ofWord16 h.catchType)) := by
  simp only [Handler.write, emits_bind_iff, emits_word16_iff, exists_and_left, exists_eq_left]

theorem CodeBody.emits_write_iff {b : CodeBody} {bs : Bytes} :
    Emits b.write bs ↔ ∃ handlers attributes, b.code.length < 0x100000000 ∧
      Table (fun h => Emits (Handler.write h)) b.handlers handlers ∧
      Table (fun a => Emits (Attribute.write a)) b.attributes attributes ∧
      bs = .ofWord16 b.maxStack ++ (.ofWord16 b.maxLocals ++
        (.ofWord32 (.ofNat b.code.length) ++ (b.code ++ (handlers ++ attributes)))) := by
  obtain ⟨maxStack, maxLocals, code, handlers, attributes⟩ := b
  rw [CodeBody.write, Attribute.writeAll_eq]
  simp only [emits_bind_iff, emits_word16_iff, emits_count32_iff, emits_bytes_iff,
    emits_count16_iff, emits_forM_iff, Table, exists_and_left, exists_eq_left, and_assoc]
  constructor
  · intro written
    rcases written with ⟨short, few, _, ⟨_, ⟨_, ⟨_, ⟨_, ⟨x, hx, few', _, ⟨y, hy, rfl⟩, rfl⟩, rfl⟩,
      rfl⟩, rfl⟩, rfl⟩, rfl⟩
    refine ⟨short, few, _, ⟨x, hx, rfl⟩, few', _, ⟨y, hy, rfl⟩, ?_⟩
    simp only [List.append_assoc]
  · intro layout
    rcases layout with ⟨short, few, _, ⟨x, hx, rfl⟩, few', _, ⟨y, hy, rfl⟩, rfl⟩
    refine ⟨short, few, _, ⟨_, ⟨_, ⟨_, ⟨_, ⟨x, hx, few', _, ⟨y, hy, rfl⟩, rfl⟩, rfl⟩, rfl⟩, rfl⟩,
      rfl⟩, ?_⟩
    simp only [List.append_assoc]

end JvmClass
