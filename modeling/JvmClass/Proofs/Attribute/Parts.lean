import JvmClass.Proofs.Annotation.Parts
import JvmClass.Proofs.Attribute.Counting

/-!
# JvmClass.Proofs.Attribute.Parts — attributes, flattened into what is written.

The length of a payload stands in front of it, and the length of the code in front of the code;
neither can fail in a payload that is small enough for its length field.  So such an attribute is
written as its parts, and the counts among these are the counts of its tables.
-/

namespace JvmClass

open Writer

/-- One slot number. -/
def indexParts (index : UInt16) : List Part :=
  [.fixed (.ofWord16 index)]

/-- The class, its outer class, its name and its flags. -/
def InnerClass.parts (c : InnerClass) : List Part :=
  [.fixed (.ofWord16 c.inner), .fixed (.ofWord16 c.outer), .fixed (.ofWord16 c.name),
    .fixed (.ofWord16 c.flags.bits)]

/-- The stretch of code, the handler and the class of exceptions. -/
def Handler.parts (h : Handler) : List Part :=
  [.fixed (.ofWord16 h.startPc), .fixed (.ofWord16 h.endPc), .fixed (.ofWord16 h.handlerPc),
    .fixed (.ofWord16 h.catchType)]

mutual

/-- The fields of a payload. -/
def Payload.parts : Payload → List Part
  | .constantValue constant => [.fixed (.ofWord16 constant)]
  | .annotations list => Part.table AnnotationNode.parts list
  | .typeAnnotations list => Part.table TypeAnnotationNode.parts list
  | .parameterAnnotations parameters =>
    .count8 parameters.length :: parameters.flatMap (Part.table AnnotationNode.parts)
  | .annotationDefault value => value.parts
  | .nestHost host => [.fixed (.ofWord16 host)]
  | .nestMembers classes => Part.table indexParts classes
  | .enclosingMethod owner method => [.fixed (.ofWord16 owner), .fixed (.ofWord16 method)]
  | .exceptions classes => Part.table indexParts classes
  | .innerClasses classes => Part.table InnerClass.parts classes
  | .code body => body.parts
  | .raw bytes => [.fixed bytes]

/-- The two limits, the code behind its length, the handlers and the attributes. -/
def CodeBody.parts : CodeBody → List Part
  | ⟨maxStack, maxLocals, code, handlers, attributes⟩ =>
    .fixed (.ofWord16 maxStack) :: .fixed (.ofWord16 maxLocals) ::
      .fixed (.ofWord32 (.ofNat code.length)) :: .fixed code ::
        (Part.table Handler.parts handlers ++
          .count16 attributes.length :: Attribute.partsAll attributes)

/-- For each attribute its name, the length of its payload and the payload. -/
def Attribute.partsAll : List Attribute → List Part
  | [] => []
  | ⟨name, payload⟩ :: rest =>
    .fixed (.ofWord16 name) :: .fixed (.ofWord32 payload.length) ::
      (payload.parts ++ Attribute.partsAll rest)

end

/-- A count and the attributes. -/
def Attribute.tableParts (table : List Attribute) : List Part :=
  .count16 table.length :: Attribute.partsAll table

/-! ## Counts -/

mutual

/-- The tables of the payload have no more elements than their counts can tell, and so do those in
them. -/
def Payload.CountsFit : Payload → Prop
  | .annotations list => list.length < 0x10000 ∧ ∀ a ∈ list, a.CountsFit
  | .typeAnnotations list => list.length < 0x10000 ∧ ∀ a ∈ list, a.CountsFit
  | .parameterAnnotations parameters =>
    parameters.length < 0x100 ∧
      ∀ list ∈ parameters, list.length < 0x10000 ∧ ∀ a ∈ list, a.CountsFit
  | .annotationDefault value => value.CountsFit
  | .nestMembers classes => classes.length < 0x10000
  | .exceptions classes => classes.length < 0x10000
  | .innerClasses classes => classes.length < 0x10000
  | .code body => body.CountsFit
  | _ => True

/-- There are no more handlers and attributes than two bytes can count each. -/
def CodeBody.CountsFit : CodeBody → Prop
  | ⟨_, _, _, handlers, attributes⟩ =>
    handlers.length < 0x10000 ∧ attributes.length < 0x10000 ∧ Attribute.CountsFitAll attributes

/-- The counts in the payloads fit. -/
def Attribute.CountsFitAll : List Attribute → Prop
  | [] => True
  | ⟨_, payload⟩ :: rest => payload.CountsFit ∧ Attribute.CountsFitAll rest

end

/-- There are no more attributes than two bytes can count, and the counts in them fit. -/
structure Attribute.TableFits (table : List Attribute) : Prop where
  count : table.length < 0x10000
  attributes : ∀ a ∈ table, a.payload.CountsFit

theorem Attribute.countsFitAll_iff {as : List Attribute} :
    Attribute.CountsFitAll as ↔ ∀ a ∈ as, a.payload.CountsFit := by
  induction as with
  | nil => simp [Attribute.CountsFitAll]
  | cons a as ih =>
      obtain ⟨name, payload⟩ := a
      rw [Attribute.CountsFitAll, ih, List.forall_mem_cons]

/-! ## Elements of tables -/

theorem word16_eq_parts (index : UInt16) :
    Writer.word16 index = Part.writeAll (indexParts index) := by
  simp only [indexParts, Part.writeAll_cons, Part.writeAll_nil, bind_pure_unit]
  rfl

theorem InnerClass.write_eq_parts (c : InnerClass) : c.write = Part.writeAll c.parts := by
  simp only [InnerClass.parts, Part.writeAll_cons, Part.writeAll_nil, bind_pure_unit]
  rfl

theorem Handler.write_eq_parts (h : Handler) : h.write = Part.writeAll h.parts := by
  simp only [Handler.parts, Part.writeAll_cons, Part.writeAll_nil, bind_pure_unit]
  rfl

theorem writeIndices_eq_parts (indices : List UInt16) :
    writeIndices indices = Part.writeAll (Part.table indexParts indices) :=
  Part.writeAll_table fun index _ => word16_eq_parts index

theorem AnnotationNode.writeTable_eq_parts (table : List AnnotationNode) :
    AnnotationNode.writeTable table = Part.writeAll (Part.table AnnotationNode.parts table) :=
  Part.writeAll_table fun a _ => a.write_eq_parts

theorem TypeAnnotationNode.writeTable_eq_parts (table : List TypeAnnotationNode) :
    TypeAnnotationNode.writeTable table =
      Part.writeAll (Part.table TypeAnnotationNode.parts table) :=
  Part.writeAll_table fun a _ => a.write_eq_parts

/-! ## Payloads that are small enough for their length fields -/

mutual

theorem Payload.write_eq_parts :
    ∀ {p : Payload}, p.size < 0x100000000 → p.write = Part.writeAll p.parts
  | .constantValue _, _ | .nestHost _, _ | .enclosingMethod _ _, _ | .raw _, _ => by
    rw [Payload.write, Payload.parts]
    simp only [Part.writeAll_cons, Part.writeAll_nil, bind_pure_unit]
    rfl
  | .annotations list, _ => AnnotationNode.writeTable_eq_parts list
  | .typeAnnotations list, _ => TypeAnnotationNode.writeTable_eq_parts list
  | .parameterAnnotations parameters, _ => by
    rw [Payload.write,
      Part.writeAll_flatMap fun table _ => AnnotationNode.writeTable_eq_parts table]
    rfl
  | .annotationDefault value, _ => value.write_eq_parts
  | .nestMembers classes, _ | .exceptions classes, _ => writeIndices_eq_parts classes
  | .innerClasses classes, _ => Part.writeAll_table fun c _ => c.write_eq_parts
  | .code body, small => CodeBody.write_eq_parts (b := body) small

theorem CodeBody.write_eq_parts :
    ∀ {b : CodeBody}, b.size < 0x100000000 → b.write = Part.writeAll b.parts
  | ⟨maxStack, maxLocals, code, handlers, attributes⟩, small => by
    have sum : 10 + code.length + 8 * handlers.length + (2 + Attribute.sizeAll attributes) <
        0x100000000 := small
    have short : code.length < 0x100000000 := by omega
    -- what stands in a body is smaller than the body, so no length in it can fail either
    have nested : ∀ a ∈ attributes, a.payload.size < 0x100000000 := fun a ha =>
      Nat.lt_of_le_of_lt (CodeBody.size_le_of_mem ha) small
    rw [CodeBody.write, Attribute.writeAll_eq_parts nested, Writer.count32, if_pos short,
      Part.writeAll_flatMap fun h _ => Handler.write_eq_parts h]
    simp only [CodeBody.parts, Part.table, Part.writeAll_cons, Part.writeAll_append, bind_assoc]
    rfl

theorem Attribute.writeAll_eq_parts : ∀ {as : List Attribute},
    (∀ a ∈ as, a.payload.size < 0x100000000) →
      Attribute.writeAll as = Part.writeAll (Attribute.partsAll as)
  | [], _ => rfl
  | ⟨name, payload⟩ :: rest, small => by
    obtain ⟨first, others⟩ := List.forall_mem_cons.mp small
    have length : Payload.checkedLength payload = .ok payload.length :=
      Payload.checkedLength_of_small first
    rw [Attribute.writeAll, Attribute.write_of_ok length, Payload.write_eq_parts first,
      Attribute.writeAll_eq_parts others]
    simp only [Attribute.partsAll, Part.writeAll_cons, Part.writeAll_append, bind_assoc]
    rfl

end

theorem Attribute.writeTable_eq_parts {table : List Attribute}
    (small : ∀ a ∈ table, a.payload.size < 0x100000000) :
    Attribute.writeTable table = Part.writeAll (Attribute.tableParts table) := by
  rw [Attribute.writeTable, Attribute.writeAll_eq_parts small]
  rfl

/-! ## Fitting -/

theorem allFit_indexTable_iff {indices : List UInt16} :
    Part.AllFit (Part.table indexParts indices) ↔ indices.length < 0x10000 := by
  rw [Part.allFit_table_iff]
  apply and_iff_left
  intro index _
  simp [indexParts]

mutual

theorem Payload.allFit_parts_iff : ∀ p : Payload, Part.AllFit p.parts ↔ p.CountsFit
  | .constantValue _ | .nestHost _ | .enclosingMethod _ _ | .raw _ => by
    simp [Payload.parts, Payload.CountsFit]
  | .annotations list => by
    simp only [Payload.parts, Payload.CountsFit, Part.allFit_table_iff,
      AnnotationNode.allFit_parts_iff]
  | .typeAnnotations list => by
    simp only [Payload.parts, Payload.CountsFit, Part.allFit_table_iff,
      TypeAnnotationNode.allFit_parts_iff]
  | .parameterAnnotations parameters => by
    simp only [Payload.parts, Payload.CountsFit, Part.allFit_cons_iff, Part.fits_count8_iff,
      Part.allFit_flatMap_iff, Part.allFit_table_iff, AnnotationNode.allFit_parts_iff]
  | .annotationDefault value => value.allFit_parts_iff
  | .nestMembers classes | .exceptions classes => allFit_indexTable_iff
  | .innerClasses classes => by
    rw [Payload.parts, Payload.CountsFit, Part.allFit_table_iff]
    apply and_iff_left
    intro c _
    simp [InnerClass.parts]
  | .code body => CodeBody.allFit_parts_iff body

theorem CodeBody.allFit_parts_iff : ∀ b : CodeBody, Part.AllFit b.parts ↔ b.CountsFit
  | ⟨maxStack, maxLocals, code, handlers, attributes⟩ => by
    have entries : ∀ h ∈ handlers, Part.AllFit h.parts := fun h _ => by simp [Handler.parts]
    simp only [CodeBody.parts, CodeBody.CountsFit, Part.allFit_cons_iff, Part.fits_fixed,
      Part.allFit_append_iff, Part.allFit_table_iff, and_iff_left entries, Part.fits_count16_iff,
      Attribute.allFit_partsAll_iff attributes, true_and]

theorem Attribute.allFit_partsAll_iff : ∀ as : List Attribute,
    Part.AllFit (Attribute.partsAll as) ↔ Attribute.CountsFitAll as
  | [] => by simp [Attribute.partsAll, Attribute.CountsFitAll]
  | ⟨name, payload⟩ :: rest => by
    simp [Attribute.partsAll, Attribute.CountsFitAll, payload.allFit_parts_iff,
      Attribute.allFit_partsAll_iff rest]

end

theorem Attribute.allFit_tableParts_iff {table : List Attribute} :
    Part.AllFit (Attribute.tableParts table) ↔ Attribute.TableFits table := by
  rw [Attribute.tableParts, Part.allFit_cons_iff, Part.fits_count16_iff,
    Attribute.allFit_partsAll_iff, Attribute.countsFitAll_iff]
  exact ⟨fun h => ⟨h.1, h.2⟩, fun h => ⟨h.count, h.attributes⟩⟩

end JvmClass
