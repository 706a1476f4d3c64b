import JvmClass.Proofs.Annotation.Length
import JvmClass.Proofs.Attribute.Emission

/-!
# JvmClass.Proofs.Attribute.Length — the length field counts the payload.

Two lengths are computed for a payload.  `Payload.length` adds words and wraps, and is always the
number of bytes up to a multiple of the size of a word.  `Payload.checkedLength` refuses what
outgrows the field; for a payload that is short enough for its field it is the number of bytes.
The payloads in a body are shorter than the body, so being short passes down to them.

The first sum is stated over an `Arithmetic`, as it is for annotations, so that the size of a
payload is the same sum in exact numbers.
-/

namespace JvmClass

open Writer

section Sums

variable {α : Type}

/-! ## The length that wraps -/

mutual

/-- The fields of a payload. -/
def Payload.lengthIn (A : Arithmetic α) : Payload → α
  | .constantValue _ => A.ofNat 2
  | .annotations list => AnnotationNode.tableLengthIn A list
  | .typeAnnotations list => TypeAnnotationNode.tableLengthIn A list
  | .parameterAnnotations parameters =>
    A.add (A.ofNat 1) (A.sum (parameters.map (AnnotationNode.tableLengthIn A)))
  | .annotationDefault value => value.lengthIn A
  | .nestHost _ => A.ofNat 2
  | .nestMembers classes => A.add (A.ofNat 2) (A.records 2 classes.length)
  | .enclosingMethod .. => A.ofNat 4
  | .exceptions classes => A.add (A.ofNat 2) (A.records 2 classes.length)
  | .innerClasses classes => A.add (A.ofNat 2) (A.records 8 classes.length)
  | .code body => body.lengthIn A
  | .raw bytes => A.ofNat bytes.length

/-- The two limits, the code and the handlers with their counts, and the attributes. -/
def CodeBody.lengthIn (A : Arithmetic α) : CodeBody → α
  | ⟨_, _, code, handlers, attributes⟩ =>
    A.add (A.add (A.add (A.ofNat 10) (A.ofNat code.length)) (A.records 8 handlers.length))
      (A.add (A.ofNat 2) (Attribute.lengthAllIn A attributes))

/-- For each attribute its name, its length field and its payload. -/
def Attribute.lengthAllIn (A : Arithmetic α) : List Attribute → α
  | [] => A.ofNat 0
  | ⟨_, payload⟩ :: rest =>
    A.add (A.add (A.ofNat 6) (payload.lengthIn A)) (Attribute.lengthAllIn A rest)

end

mutual

theorem Payload.lengthIn_wrapping : ∀ p : Payload, p.lengthIn .wrapping = p.length
  | .constantValue _ | .nestHost _ | .nestMembers _ | .enclosingMethod _ _ | .exceptions _
  | .innerClasses _ | .raw _ => rfl
  | .annotations list => AnnotationNode.tableLengthIn_wrapping list
  | .typeAnnotations list => TypeAnnotationNode.tableLengthIn_wrapping list
  | .parameterAnnotations parameters => by
    rw [Payload.lengthIn, funext AnnotationNode.tableLengthIn_wrapping]
    rfl
  | .annotationDefault value => value.lengthIn_wrapping
  | .code body => body.lengthIn_wrapping

theorem CodeBody.lengthIn_wrapping : ∀ b : CodeBody, b.lengthIn .wrapping = b.length
  | ⟨_, _, _, _, attributes⟩ => by
    rw [CodeBody.lengthIn, Attribute.lengthAllIn_wrapping attributes]
    rfl

theorem Attribute.lengthAllIn_wrapping :
    ∀ as : List Attribute, Attribute.lengthAllIn .wrapping as = Attribute.lengthAll as
  | [] => rfl
  | ⟨_, payload⟩ :: rest => by
    rw [Attribute.lengthAllIn, payload.lengthIn_wrapping, Attribute.lengthAllIn_wrapping rest]
    rfl

end

/-- The size of a payload. -/
def Payload.size (p : Payload) : Nat := p.lengthIn .exact

/-- The size of a body. -/
def CodeBody.size (b : CodeBody) : Nat := b.lengthIn .exact

/-- The size of a list of attributes. -/
def Attribute.sizeAll (as : List Attribute) : Nat := lengthAllIn .exact as

variable {A : Arithmetic α}

mutual

theorem Payload.lengthIn_eq (faithful : A.Faithful) :
    ∀ p : Payload, p.lengthIn A = A.ofNat p.size
  | .constantValue _ | .nestHost _ | .enclosingMethod _ _ | .raw _ => rfl
  | .annotations list => AnnotationNode.tableLengthIn_eq faithful list
  | .typeAnnotations list => TypeAnnotationNode.tableLengthIn_eq faithful list
  | .parameterAnnotations parameters => by
    rw [Payload.lengthIn,
      faithful.sum_map fun table _ => AnnotationNode.tableLengthIn_eq faithful table, faithful.add]
    rfl
  | .annotationDefault value => value.lengthIn_eq faithful
  | .nestMembers _ | .exceptions _ => by
    rw [Payload.lengthIn, faithful.records 2 _ (by decide) (by decide), faithful.add]
    rfl
  | .innerClasses _ => by
    rw [Payload.lengthIn, faithful.records 8 _ (by decide) (by decide), faithful.add]
    rfl
  | .code body => CodeBody.lengthIn_eq faithful body

theorem CodeBody.lengthIn_eq (faithful : A.Faithful) :
    ∀ b : CodeBody, b.lengthIn A = A.ofNat b.size
  | ⟨_, _, _, _, attributes⟩ => by
    rw [CodeBody.lengthIn, Attribute.lengthAllIn_eq faithful attributes,
      faithful.records 8 _ (by decide) (by decide)]
    simp only [faithful.add]
    rfl

theorem Attribute.lengthAllIn_eq (faithful : A.Faithful) :
    ∀ as : List Attribute, Attribute.lengthAllIn A as = A.ofNat (Attribute.sizeAll as)
  | [] => rfl
  | ⟨_, payload⟩ :: rest => by
    rw [Attribute.lengthAllIn, payload.lengthIn_eq faithful,
      Attribute.lengthAllIn_eq faithful rest, faithful.add, faithful.add]
    rfl

end

end Sums

/-! ## The bytes of a payload -/

theorem InnerClass.size_of_emits {c : InnerClass} {bs : Bytes} (h : Emits c.write bs) :
    bs.length = 8 := by
  rw [InnerClass.emits_write_iff.mp h]
  rfl

theorem Handler.size_of_emits {h : Handler} {bs : Bytes} (written : Emits h.write bs) :
    bs.length = 8 := by
  rw [Handler.emits_write_iff.mp written]
  rfl

theorem indices_size_of_emits {indices : List UInt16} {bs : Bytes}
    (h : Emits (writeIndices indices) bs) : bs.length = 2 + 2 * indices.length :=
  (emits_writeIndices_iff.mp h).length_eq fun w x hx => by
    rw [hx]
    rfl

mutual

theorem Payload.size_of_emits :
    ∀ {p : Payload} {bs : Bytes}, Emits p.write bs → bs.length = p.size
  | .constantValue _, _, h | .nestHost _, _, h => by
    rw [emits_word16_iff.mp h]
    rfl
  | .annotations _, _, h => AnnotationNode.tableSize_of_emits h
  | .typeAnnotations _, _, h => TypeAnnotationNode.tableSize_of_emits h
  | .parameterAnnotations parameters, _, h => by
    obtain ⟨-, body, series, rfl⟩ := emits_shortTable_iff.mp h
    rw [List.length_cons, series.length_eq_sum fun _ _ => AnnotationNode.tableSize_of_emits,
      Nat.add_comm]
    rfl
  | .annotationDefault _, _, h => ElementValue.size_of_emits h
  | .nestMembers _, _, h | .exceptions _, _, h => indices_size_of_emits h
  | .enclosingMethod _ _, _, h => by
    obtain ⟨_, _, first, second, rfl⟩ := emits_bind_iff.mp h
    rw [emits_word16_iff.mp first, emits_word16_iff.mp second]
    rfl
  | .innerClasses _, _, h =>
    (emits_table_iff.mp h).length_eq fun _ _ => InnerClass.size_of_emits
  | .code body, _, h => CodeBody.size_of_emits (b := body) h
  | .raw bytes, _, h => by
    rw [emits_bytes_iff.mp h]
    rfl

theorem CodeBody.size_of_emits :
    ∀ {b : CodeBody} {bs : Bytes}, Emits b.write bs → bs.length = b.size
  | ⟨_, _, code, handlers, attributes⟩, _, h => by
    obtain ⟨x, _, -, hx, ⟨-, body, series, rfl⟩, rfl⟩ := CodeBody.emits_write_iff.mp h
    have table : x.length = 2 + 8 * handlers.length :=
      hx.length_eq fun _ _ => Handler.size_of_emits
    have nested : body.length = Attribute.sizeAll attributes := Attribute.sizeAll_of_series series
    show _ = 10 + code.length + 8 * handlers.length + (2 + Attribute.sizeAll attributes)
    simp only [List.length_append, Bytes.length_ofWord16, Bytes.length_ofWord32, table, nested]
    omega

theorem Attribute.sizeAll_of_series :
    ∀ {as : List Attribute} {bs : Bytes}, Series (fun a => Emits a.write) as bs →
      bs.length = Attribute.sizeAll as
  | [], _, .nil => rfl
  | ⟨_, payload⟩ :: rest, _, .cons first others => by
    obtain ⟨length, body, -, written, rfl⟩ := Attribute.emits_write_iff.mp first
    show _ = 6 + payload.size + Attribute.sizeAll rest
    simp only [List.length_append, Bytes.length_ofWord16, Bytes.length_ofWord32,
      Payload.size_of_emits (p := payload) written, Attribute.sizeAll_of_series others]
    omega

end

theorem Payload.length_of_emits {p : Payload} {bs : Bytes} (h : Emits p.write bs) :
    p.length = sizeWord bs := by
  rw [← p.lengthIn_wrapping, p.lengthIn_eq Arithmetic.faithful_wrapping, ← size_of_emits h]
  rfl

/-! ## The length that is checked -/

theorem lengthField_of_lt {n : Nat} (small : n < 0x100000000) : lengthField n = .ok (.ofNat n) :=
  if_pos small

/-- The length that wraps is the size if a word can hold it. -/
theorem Payload.toNat_length {p : Payload} (small : p.size < 0x100000000) :
    p.length.toNat = p.size := by
  rw [← p.lengthIn_wrapping, p.lengthIn_eq Arithmetic.faithful_wrapping]
  exact UInt32.toNat_ofNat_of_lt' small

mutual

/-- The two lengths agree on what fits the field. -/
theorem Payload.checkedLength_of_small :
    ∀ {p : Payload}, p.size < 0x100000000 → p.checkedLength = .ok p.length
  | .constantValue _, _ | .annotations _, _ | .typeAnnotations _, _ | .parameterAnnotations _, _
  | .annotationDefault _, _ | .nestHost _, _ | .nestMembers _, _ | .enclosingMethod _ _, _
  | .exceptions _, _ | .innerClasses _, _ => rfl
  | .code body, small => CodeBody.checkedLength_of_small (b := body) small
  | .raw _, small => lengthField_of_lt small

theorem CodeBody.checkedLength_of_small :
    ∀ {b : CodeBody}, b.size < 0x100000000 → b.checkedLength = .ok b.length
  | ⟨maxStack, maxLocals, code, handlers, attributes⟩, small => by
    have parts : 10 + code.length + 8 * handlers.length + (2 + Attribute.sizeAll attributes) <
        0x100000000 := small
    rw [CodeBody.checkedLength, Attribute.checkedLengthAll_of_small (by omega),
      ← CodeBody.lengthIn_wrapping, CodeBody.lengthIn_eq Arithmetic.faithful_wrapping]
    show lengthField (12 + code.length + 8 * handlers.length + Attribute.sizeAll attributes) =
      .ok (.ofNat (10 + code.length + 8 * handlers.length + (2 + Attribute.sizeAll attributes)))
    rw [lengthField_of_lt (by omega)]
    congr 2
    omega

/-- The attributes are shorter than what they lie in, so their lengths fit as well. -/
theorem Attribute.checkedLengthAll_of_small :
    ∀ {as : List Attribute}, Attribute.sizeAll as < 0x100000000 →
      Attribute.checkedLengthAll as = .ok (Attribute.sizeAll as)
  | [], _ => rfl
  | ⟨_, payload⟩ :: rest, small => by
    have parts : 6 + payload.size + Attribute.sizeAll rest < 0x100000000 := small
    have first : payload.size < 0x100000000 := by omega
    have others : Attribute.sizeAll rest < 0x100000000 := by omega
    rw [Attribute.checkedLengthAll, Payload.checkedLength_of_small first,
      Attribute.checkedLengthAll_of_small others]
    show Except.ok (6 + payload.length.toNat + Attribute.sizeAll rest) = _
    rw [Payload.toNat_length first]
    rfl

end

theorem Payload.checkedLength_of_emits {p : Payload} {bs : Bytes} (h : Emits p.write bs)
    (short : bs.length < 0x100000000) : p.checkedLength = .ok (sizeWord bs) := by
  rw [checkedLength_of_small (size_of_emits h ▸ short), length_of_emits h]

/-! ## Short attributes -/

/-- The payload fits its length field. -/
def Attribute.Short (a : Attribute) : Prop :=
  ∀ body, Emits a.payload.write body → body.length < 0x100000000

/-- The attributes in a body are short. -/
def Payload.ShortInside : Payload → Prop
  | .code body => ∀ a ∈ body.attributes, a.Short
  | _ => True

/-- A short attribute is its name, the length of its payload and the payload. -/
theorem Attribute.short_and_emits_iff {a : Attribute} {bs : Bytes} :
    a.Short ∧ Emits a.write bs ↔ ∃ body, body.length < 0x100000000 ∧
      Emits a.payload.write body ∧
      bs = .ofWord16 a.name ++ (.ofWord32 (sizeWord body) ++ body) := by
  rw [emits_write_iff]
  constructor
  · intro h
    rcases h with ⟨short, length, body, fits, written, rfl⟩
    have counted := Payload.checkedLength_of_emits written (short body written)
    rw [fits, Except.ok.injEq] at counted
    exact ⟨body, short body written, written, by rw [counted]⟩
  · intro h
    rcases h with ⟨body, small, written, rfl⟩
    refine ⟨fun body' written' => ?_, _, body, ?_, written, rfl⟩
    · rw [written'.unique written]
      exact small
    · exact Payload.checkedLength_of_emits written small

/-- What stands in a body is written within it. -/
theorem CodeBody.exists_infix_of_mem {b : CodeBody} {bs : Bytes} (written : Emits b.write bs)
    {a : Attribute} (h : a ∈ b.attributes) : ∃ x, Emits a.write x ∧ x <:+: bs := by
  obtain ⟨handlers, attributes, -, -, table, rfl⟩ := CodeBody.emits_write_iff.mp written
  obtain ⟨x, hx, within⟩ := table.exists_infix_of_mem h
  refine ⟨x, hx, within.trans ?_⟩
  simp only [← List.append_assoc]
  exact (List.suffix_append _ attributes).isInfix

/-- In a payload that fits its field, so do all others. -/
theorem Payload.shortInside_of_emits {p : Payload} {bs : Bytes} (h : Emits p.write bs)
    (short : bs.length < 0x100000000) : p.ShortInside := by
  cases p with
  | code body =>
      intro a ha inner written
      -- the bytes of an inner payload lie within those of the body
      obtain ⟨x, hx, within⟩ := CodeBody.exists_infix_of_mem h ha
      obtain ⟨_, inner', -, written', rfl⟩ := Attribute.emits_write_iff.mp hx
      have le := within.length_le
      rw [written.unique written']
      simp only [List.length_append] at le
      omega
  | _ => trivial

end JvmClass
