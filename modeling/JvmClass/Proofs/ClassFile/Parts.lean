import JvmClass.Proofs.Attribute.Parts
import JvmClass.Proofs.ClassFile.NormalForm

/-!
# JvmClass.Proofs.ClassFile.Parts — the counts of a class, and the first that is too large.

Tables of any depth are written with their counts in front of them, and a count is checked only when
its turn comes.  Whether a class can be written depends on the sizes of its tables and texts alone
(`ClassFile.CountsFit`).  Where it cannot, the parts of the class in their order (`ClassFile.parts`)
tell which count is reported and what is in the output by then.
-/

namespace JvmClass

open Writer

/-! ## Pools -/

/-- Two slot numbers. -/
def pairParts (first second : UInt16) : List Part :=
  [.fixed (.ofWord16 first), .fixed (.ofWord16 second)]

/-- The contents of a constant. -/
def Entry.contentsParts : Entry → List Part
  | utf8 text => [.count16 (Text.encode text).length, .fixed (Text.encode text)]
  | integer value => [.fixed (.ofWord32 value.toUInt32)]
  | float bits => [.fixed (.ofWord32 bits)]
  | long value => [.fixed (.ofWord64 value.toUInt64)]
  | double bits => [.fixed (.ofWord64 bits)]
  | classRef name => indexParts name
  | string text => indexParts text
  | fieldRef owner member => pairParts owner member
  | methodRef owner member => pairParts owner member
  | interfaceMethodRef owner member => pairParts owner member
  | nameAndType name descriptor => pairParts name descriptor
  | methodHandle kind target => [.fixed [kind], .fixed (.ofWord16 target)]
  | methodType descriptor => indexParts descriptor
  | dynamic bootstrap member => pairParts bootstrap member
  | invokeDynamic bootstrap member => pairParts bootstrap member
  | moduleRef name => indexParts name
  | packageRef name => indexParts name
  | unusable => []

/-- The number of the kind and the contents. -/
def Entry.parts (e : Entry) : List Part :=
  match e.tag? with
  | none => []
  | some tag => .fixed [tag.number] :: e.contentsParts

/-- The size and the constants. -/
def Pool.parts (p : Pool) : List Part :=
  .count16 p.size :: p.slots.toList.flatMap Entry.parts

/-- The size of the pool fits two bytes, and so does that of each text as it is written. -/
structure Pool.CountsFit (p : Pool) : Prop where
  size : p.size < 0x10000
  texts : ∀ text ∈ p.texts, (Text.encode text).length < 0x10000

theorem Entry.writeContents_eq_parts (e : Entry) :
    e.writeContents = Part.writeAll e.contentsParts := by
  cases e <;>
    simp only [contentsParts, indexParts, pairParts, Part.writeAll_cons, Part.writeAll_nil,
      bind_pure_unit] <;>
    rfl

theorem Entry.write_eq_parts (e : Entry) : e.write = Part.writeAll e.parts := by
  unfold write parts
  cases e.tag? with
  | none => rfl
  | some tag =>
      dsimp only
      rw [e.writeContents_eq_parts]
      rfl

theorem Entry.allFit_parts_iff (e : Entry) :
    Part.AllFit e.parts ↔ ∀ text ∈ e.text?, (Text.encode text).length < 0x10000 := by
  cases e <;> simp [parts, tag?, contentsParts, indexParts, pairParts, text?]

theorem Pool.write_eq_parts (p : Pool) : p.write = Part.writeAll p.parts := by
  rw [write, Part.writeAll_flatMap fun e _ => e.write_eq_parts]
  rfl

theorem Pool.allFit_parts_iff (p : Pool) : Part.AllFit p.parts ↔ p.CountsFit := by
  have texts : (∀ e ∈ p.slots.toList, ∀ text ∈ e.text?, (Text.encode text).length < 0x10000) ↔
      ∀ text ∈ p.texts, (Text.encode text).length < 0x10000 := by
    simp only [Pool.texts, List.mem_filterMap]
    constructor
    · rintro each text ⟨e, he, found⟩
      exact each e he text found
    · intro each e he text found
      exact each text ⟨e, he, found⟩
  simp only [parts, Part.allFit_cons_iff, Part.fits_count16_iff, Part.allFit_flatMap_iff,
    Entry.allFit_parts_iff, texts]
  exact ⟨fun h => ⟨h.1, h.2⟩, fun h => ⟨h.size, h.texts⟩⟩

/-! ## Members -/

/-- The flags, the name, the descriptor and the attributes. -/
def Member.parts (m : Member) : List Part :=
  .fixed (.ofWord16 m.flags.bits) :: .fixed (.ofWord16 m.name) :: .fixed (.ofWord16 m.descriptor) ::
    Attribute.tableParts m.attributes

theorem Member.write_eq_parts {m : Member}
    (small : ∀ a ∈ m.attributes, a.payload.size < 0x100000000) :
    m.write = Part.writeAll m.parts := by
  rw [Member.write, Attribute.writeTable_eq_parts small]
  rfl

theorem Member.allFit_parts_iff (m : Member) :
    Part.AllFit m.parts ↔ Attribute.TableFits m.attributes := by
  simp [Member.parts, Attribute.allFit_tableParts_iff]

theorem Member.writeTable_eq_parts {table : List Member}
    (small : ∀ m ∈ table, ∀ a ∈ m.attributes, a.payload.size < 0x100000000) :
    Member.writeTable table = Part.writeAll (Part.table Member.parts table) :=
  Part.writeAll_table fun m hm => Member.write_eq_parts (small m hm)

theorem Member.allFit_table_iff {table : List Member} :
    Part.AllFit (Part.table Member.parts table) ↔
      table.length < 0x10000 ∧ ∀ m ∈ table, Attribute.TableFits m.attributes := by
  simp only [Part.allFit_table_iff, Member.allFit_parts_iff]

/-! ## Classes -/

namespace ClassFile

/-- The parts of a class in their order. -/
def parts (c : ClassFile) : List Part :=
  .fixed (.ofWord32 magic) :: .fixed (.ofWord16 c.minorVersion) ::
    .fixed (.ofWord16 c.majorVersion) :: (c.pool.parts ++
      .fixed (.ofWord16 c.flags.bits) :: .fixed (.ofWord16 c.thisClass) ::
        .fixed (.ofWord16 c.superClass) :: (Part.table indexParts c.interfaces ++
          (Part.table Member.parts c.fields ++ (Part.table Member.parts c.methods ++
            Attribute.tableParts c.attributes))))

/-- No table of the class and no text in it is larger than its count can tell. -/
structure CountsFit (c : ClassFile) : Prop where
  pool : c.pool.CountsFit
  interfaces : c.interfaces.length < 0x10000
  fields : c.fields.length < 0x10000
  inFields : ∀ m ∈ c.fields, Attribute.TableFits m.attributes
  methods : c.methods.length < 0x10000
  inMethods : ∀ m ∈ c.methods, Attribute.TableFits m.attributes
  attributes : Attribute.TableFits c.attributes

theorem write_eq_parts {c : ClassFile} (short : c.Each fun a => a.payload.size < 0x100000000) :
    c.write = Part.writeAll c.parts := by
  rw [write, c.pool.write_eq_parts, writeIndices_eq_parts,
    Member.writeTable_eq_parts short.onFields, Member.writeTable_eq_parts short.onMethods,
    Attribute.writeTable_eq_parts short.onClass]
  simp only [parts, Part.writeAll_cons, Part.writeAll_append]
  rfl

theorem allFit_parts_iff (c : ClassFile) : Part.AllFit c.parts ↔ c.CountsFit := by
  simp only [parts, Part.allFit_cons_iff, Part.allFit_append_iff, Part.fits_fixed, true_and,
    c.pool.allFit_parts_iff, allFit_indexTable_iff, Member.allFit_table_iff,
    Attribute.allFit_tableParts_iff]
  constructor
  · intro h
    rcases h with ⟨pool, interfaces, ⟨fields, inFields⟩, ⟨methods, inMethods⟩, attributes⟩
    exact ⟨pool, interfaces, fields, inFields, methods, inMethods, attributes⟩
  · intro h
    exact ⟨h.pool, h.interfaces, ⟨h.fields, h.inFields⟩, ⟨h.methods, h.inMethods⟩, h.attributes⟩

/-- A class whose payloads are small enough for their length fields is written if all its counts
fit, and then the output holds the bytes of its parts.  Otherwise the first of its counts that does
not fit is reported, and the output holds the bytes of the parts in front of that count. -/
theorem write_refuses_first {c : ClassFile}
    (short : c.Each fun a => a.payload.size < 0x100000000) :
    (Succeeds c.write ↔ c.CountsFit) ∧
      (c.CountsFit → c.write.outcome .unbounded = ⟨.ok (), c.parts.flatMap Part.bytes⟩) ∧
      (¬ c.CountsFit → ∃ front p n back, c.parts = front ++ p :: back ∧ Part.AllFit front ∧
        p.refused? = some n ∧
        c.write.outcome .unbounded = ⟨.error (.overflow ⟨n⟩), front.flatMap Part.bytes⟩) := by
  rw [write_eq_parts short, ← allFit_parts_iff]
  refine ⟨Part.succeeds_writeAll_iff, Part.outcome_writeAll_of_allFit, fun large => ?_⟩
  obtain ⟨front, p, n, back, split, fit, refused⟩ := Part.exists_first_refused large
  refine ⟨front, p, n, back, split, fit, refused, ?_⟩
  rw [split]
  exact Part.outcome_writeAll_of_refused fit refused

/-- An annotation that stands 300 steps deep in a type. -/
def longPath : TypeAnnotationNode :=
  ⟨0x13, .empty, List.replicate 300 ⟨0, 0⟩, ⟨3, []⟩⟩

/-- A class that carries this annotation in the body of a method. -/
def withLongPath : ClassFile :=
  let body : CodeBody := ⟨0, 1, [0xB1], [], [⟨2, .typeAnnotations [longPath]⟩]⟩
  ⟨0, 52, .empty, ⟨0x21⟩, 0, 0, [], [], [⟨⟨0x01⟩, 4, 5, [⟨1, .code body⟩]⟩], []⟩

theorem write_refuses_first_withLongPath :
    (withLongPath.Each fun a => a.payload.size < 0x100000000) ∧
      ¬ withLongPath.CountsFit ∧
        ∃ front p n back, withLongPath.parts = front ++ p :: back ∧ Part.AllFit front ∧
          p.refused? = some n ∧ withLongPath.write.outcome .unbounded =
            ⟨.error (.overflow ⟨n⟩), front.flatMap Part.bytes⟩ := by
  have short : withLongPath.Each fun a => a.payload.size < 0x100000000 :=
    ⟨by decide, by decide, by decide +kernel⟩
  have large : ¬ withLongPath.CountsFit := by
    intro fit
    obtain ⟨-, inMethod⟩ := fit.inMethods _ List.mem_cons_self
    obtain ⟨-, -, ⟨-, annotations⟩, -⟩ := inMethod _ List.mem_cons_self
    have few : (List.replicate 300 (⟨0, 0⟩ : PathStep)).length < 0x100 :=
      (annotations longPath List.mem_cons_self).path
    rw [List.length_replicate] at few
    exact absurd few (by decide)
  exact ⟨short, large, (write_refuses_first short).2.2 large⟩

end ClassFile

end JvmClass
