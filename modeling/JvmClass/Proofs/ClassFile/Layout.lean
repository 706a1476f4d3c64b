import JvmClass.ClassFile.Write
import JvmClass.Proofs.Attribute.Reading
import JvmClass.Proofs.Pool.Layout

/-!
# JvmClass.Proofs.ClassFile.Layout — the bytes of a class.

A class is laid out in one way: its parts lie one behind the other in a fixed order.  What can
vary is the bytes of its pool and of its attributes, so `ClassFile.Layout` takes the relations of
these as parameters.  With the relations of reading it is the relation of `ClassFile.read`, and
with those of writing it is that of `ClassFile.write`; so reading and writing a class differ no
further than reading and writing pools and attributes do.
-/

namespace JvmClass

open Writer

/-! ## Members -/

/-- The bytes of a member, given those of attributes. -/
def Member.Layout (A : Attribute → Bytes → Prop) (m : Member) (bs : Bytes) : Prop :=
  ∃ attributes, Table A m.attributes attributes ∧ bs = .ofWord16 m.flags.bits ++
    (.ofWord16 m.name ++ (.ofWord16 m.descriptor ++ attributes))

instance Member.plain (m : Member) : Plain m.write := by
  unfold Member.write
  infer_instance

instance Member.plain_writeTable (table : List Member) : Plain (Member.writeTable table) := by
  unfold Member.writeTable
  infer_instance

theorem Member.emits_write_iff {m : Member} {bs : Bytes} :
    Emits m.write bs ↔ Member.Layout (fun a => Emits (Attribute.write a)) m bs := by
  unfold Member.write Member.Layout
  simp only [emits_bind_iff, emits_word16_iff, Attribute.emits_writeTable_iff]
  constructor
  · intro h
    rcases h with ⟨_, _, rfl, ⟨_, _, rfl, ⟨_, x, rfl, hx, rfl⟩, rfl⟩, rfl⟩
    exact ⟨x, hx, rfl⟩
  · rintro ⟨x, hx, rfl⟩
    exact ⟨_, _, rfl, ⟨_, _, rfl, ⟨_, x, rfl, hx, rfl⟩, rfl⟩, rfl⟩

theorem Member.layout_and_iff {P : Attribute → Prop} {A : Attribute → Bytes → Prop} {m : Member}
    {bs : Bytes} :
    Member.Layout (fun a x => P a ∧ A a x) m bs ↔
      (∀ a ∈ m.attributes, P a) ∧ Member.Layout A m bs := by
  unfold Member.Layout
  simp only [Table.and_iff, and_assoc, exists_and_left]

theorem Member.reads {pool : Pool} {A : Attribute → Bytes → Prop}
    (h : Reads (Attribute.read pool maxNesting) A) :
    Reads (Member.read pool) (Member.Layout A) := by
  refine (Reads.word16.lift.bind fun flags => Reads.word16.lift.bind fun name =>
    Reads.word16.lift.bind fun descriptor => (Reads.readerTable16 h).bind fun attributes =>
    Reads.pure _).congr fun m bs => ?_
  simp only [exists_and_left, exists_eq_left, exists_eq_right_right', and_assoc, List.append_nil]
  constructor
  · intro taken
    rcases taken with ⟨_, _, ⟨_, _, ⟨_, x, ⟨attributes, hx, rfl⟩, rfl⟩, rfl⟩, rfl⟩
    exact ⟨x, hx, rfl⟩
  · intro layout
    rcases layout with ⟨x, hx, rfl⟩
    refine ⟨m.flags.bits, _, ⟨m.name, _, ⟨m.descriptor, x, ?_, rfl⟩, rfl⟩, rfl⟩
    exact ⟨m.attributes, hx, rfl⟩

/-! ## Classes -/

namespace ClassFile

/-- The bytes in front of the pool. -/
def header (c : ClassFile) : Bytes :=
  .ofWord32 magic ++ (.ofWord16 c.minorVersion ++ .ofWord16 c.majorVersion)

/-- The bytes behind the pool, given those of attributes. -/
def Body (A : Attribute → Bytes → Prop) (c : ClassFile) (bs : Bytes) : Prop :=
  ∃ interfaces fields methods attributes,
    Table (fun w x => x = .ofWord16 w) c.interfaces interfaces ∧
    Table (Member.Layout A) c.fields fields ∧ Table (Member.Layout A) c.methods methods ∧
    Table A c.attributes attributes ∧
    bs = .ofWord16 c.flags.bits ++ (.ofWord16 c.thisClass ++ (.ofWord16 c.superClass ++
      (interfaces ++ (fields ++ (methods ++ attributes)))))

/-- The bytes of a class, given those of its pool and of attributes. -/
def Layout (P : Pool → Bytes → Prop) (A : Attribute → Bytes → Prop) (c : ClassFile) (bs : Bytes) :
    Prop :=
  ∃ pool body, P c.pool pool ∧ c.Body A body ∧ bs = c.header ++ (pool ++ body)

/-- A condition holds of every attribute of the class, of its fields and of its methods. -/
structure Each (P : Attribute → Prop) (c : ClassFile) : Prop where
  onClass : ∀ a ∈ c.attributes, P a
  onFields : ∀ m ∈ c.fields, ∀ a ∈ m.attributes, P a
  onMethods : ∀ m ∈ c.methods, ∀ a ∈ m.attributes, P a

/-- A condition on the attributes can be stated beside the bytes. -/
theorem body_and_iff {P : Attribute → Prop} {A : Attribute → Bytes → Prop} {c : ClassFile}
    {bs : Bytes} : c.Body (fun a x => P a ∧ A a x) bs ↔ c.Each P ∧ c.Body A bs := by
  have member : ∀ m : Member, ∀ x, Member.Layout (fun a x => P a ∧ A a x) m x ↔
      (∀ a ∈ m.attributes, P a) ∧ Member.Layout A m x := fun m x => Member.layout_and_iff
  have members : ∀ table x, Table (Member.Layout fun a x => P a ∧ A a x) table x ↔
      (∀ m ∈ table, ∀ a ∈ m.attributes, P a) ∧ Table (Member.Layout A) table x := by
    intro table x
    rw [Table.congr fun m _ => member m, Table.and_iff]
  unfold Body
  simp only [members, Table.and_iff]
  constructor
  · intro h
    rcases h with ⟨i, f, m, a, hi, ⟨onFields, hf⟩, ⟨onMethods, hm⟩, ⟨onClass, ha⟩, rfl⟩
    exact ⟨⟨onClass, onFields, onMethods⟩, i, f, m, a, hi, hf, hm, ha, rfl⟩
  · intro h
    rcases h with ⟨⟨onClass, onFields, onMethods⟩, i, f, m, a, hi, hf, hm, ha, rfl⟩
    exact ⟨i, f, m, a, hi, ⟨onFields, hf⟩, ⟨onMethods, hm⟩, ⟨onClass, ha⟩, rfl⟩

/-- What follows from the bytes of an attribute holds of every attribute. -/
theorem each_of_body {P : Attribute → Prop} {A : Attribute → Bytes → Prop} {c : ClassFile}
    {bs : Bytes} (h : c.Body A bs) (follows : ∀ a x, A a x → P a) : c.Each P := by
  have same : (fun a x => P a ∧ A a x) = A := by
    funext a x
    exact propext ⟨And.right, fun hx => ⟨follows a x hx, hx⟩⟩
  rw [← same] at h
  exact (body_and_iff.mp h).1

theorem Each.imp {P Q : Attribute → Prop} {c : ClassFile} (h : c.Each P)
    (weaker : ∀ a, P a → Q a) : c.Each Q where
  onClass a ha := weaker a (h.onClass a ha)
  onFields m hm a ha := weaker a (h.onFields m hm a ha)
  onMethods m hm a ha := weaker a (h.onMethods m hm a ha)

theorem Each.and {P Q : Attribute → Prop} {c : ClassFile} (hP : c.Each P) (hQ : c.Each Q) :
    c.Each fun a => P a ∧ Q a where
  onClass a ha := ⟨hP.onClass a ha, hQ.onClass a ha⟩
  onFields m hm a ha := ⟨hP.onFields m hm a ha, hQ.onFields m hm a ha⟩
  onMethods m hm a ha := ⟨hP.onMethods m hm a ha, hQ.onMethods m hm a ha⟩

/-! ## Writing -/

/-- What is written behind the pool. -/
def writeBody (c : ClassFile) : Writer Unit := do
  Writer.word16 c.flags.bits
  Writer.word16 c.thisClass
  Writer.word16 c.superClass
  writeIndices c.interfaces
  Member.writeTable c.fields
  Member.writeTable c.methods
  Attribute.writeTable c.attributes

instance plain_writeBody (c : ClassFile) : Plain c.writeBody := by
  unfold writeBody
  infer_instance

instance plain (c : ClassFile) : Plain c.write := by
  unfold write
  infer_instance

theorem emits_writeBody_iff {c : ClassFile} {bs : Bytes} :
    Emits c.writeBody bs ↔ c.Body (fun a => Emits (Attribute.write a)) bs := by
  have members : ∀ table x, Emits (Member.writeTable table) x ↔
      Table (Member.Layout fun a => Emits (Attribute.write a)) table x := by
    intro table x
    unfold Member.writeTable
    rw [emits_table_iff]
    exact Table.congr fun m _ y => Member.emits_write_iff
  unfold writeBody Body
  simp only [emits_bind_iff, emits_word16_iff, emits_writeIndices_iff, members,
    Attribute.emits_writeTable_iff, exists_and_left, exists_eq_left]
  constructor
  · intro written
    rcases written with ⟨_, ⟨_, ⟨_, ⟨i, hi, _, ⟨f, hf, _, tables, rfl⟩, rfl⟩, rfl⟩, rfl⟩, rfl⟩
    obtain ⟨m, hm, a, ha, rfl⟩ := tables
    exact ⟨i, hi, f, hf, m, hm, a, ha, rfl⟩
  · intro layout
    rcases layout with ⟨i, hi, f, hf, m, hm, a, ha, rfl⟩
    refine ⟨_, ⟨_, ⟨_, ⟨i, hi, _, ⟨f, hf, _, ?_, rfl⟩, rfl⟩, rfl⟩, rfl⟩, rfl⟩
    exact ⟨m, hm, a, ha, rfl⟩

theorem write_eq (c : ClassFile) :
    c.write = (do
      Writer.word32 magic
      Writer.word16 c.minorVersion
      Writer.word16 c.majorVersion
      c.pool.write
      c.writeBody) := rfl

theorem emits_write_iff {c : ClassFile} {bs : Bytes} :
    Emits c.write bs ↔
      c.Layout (fun p => Emits (Pool.write p)) (fun a => Emits (Attribute.write a)) bs := by
  rw [write_eq]
  unfold Layout header
  simp only [emits_bind_iff, emits_word32_iff, emits_word16_iff, emits_writeBody_iff,
    exists_and_left, exists_eq_left, List.append_assoc]
  constructor
  · intro written
    rcases written with ⟨_, ⟨_, ⟨_, ⟨pool, hp, body, hb, rfl⟩, rfl⟩, rfl⟩, rfl⟩
    exact ⟨pool, hp, body, hb, rfl⟩
  · intro layout
    rcases layout with ⟨pool, hp, body, hb, rfl⟩
    exact ⟨_, ⟨_, ⟨_, ⟨pool, hp, body, hb, rfl⟩, rfl⟩, rfl⟩, rfl⟩

/-! ## Reading -/

theorem reads_readMagic : Reads readMagic fun _ bs => bs = .ofWord32 magic := by
  have behind : ∀ found : UInt32, Reads
      (if found = magic then pure () else throw (.badMagic found) : Decoder Unit)
      fun _ bs => found = magic ∧ bs = [] := by
    intro found
    split
    · rename_i same
      exact (Reads.pure ()).congr fun _ _ => ⟨fun h => ⟨same, h.2⟩, fun h => ⟨rfl, h.2⟩⟩
    · rename_i other
      exact (Reads.fail _).congr fun _ _ => ⟨False.elim, fun h => other h.1⟩
  refine (Reads.word32.bind behind).congr fun _ bs => ?_
  constructor
  · intro taken
    rcases taken with ⟨_, _, _, rfl, ⟨rfl, rfl⟩, rfl⟩
    exact List.append_nil _
  · rintro rfl
    exact ⟨magic, _, [], rfl, ⟨rfl, rfl⟩, (List.append_nil _).symm⟩

/-- What is read behind the pool. -/
def readBody (minorVersion majorVersion : UInt16) (pool : Pool) : Reader ClassFile := do
  let flags ← Reader.lift Decoder.word16
  let thisClass ← Reader.lift Decoder.word16
  let superClass ← Reader.lift Decoder.word16
  let interfaces ← Reader.lift (Decoder.table16 Decoder.word16)
  let fields ← Reader.table16 (Member.read pool)
  let methods ← Reader.table16 (Member.read pool)
  let attributes ← Attribute.readTable pool
  pure
    { minorVersion, majorVersion, pool, flags := ⟨flags⟩, thisClass, superClass, interfaces, fields,
      methods, attributes }

theorem reads_readBody {minorVersion majorVersion : UInt16} {pool : Pool}
    {A : Attribute → Bytes → Prop} (h : Reads (Attribute.read pool maxNesting) A) :
    Reads (readBody minorVersion majorVersion pool) fun c bs => c.minorVersion = minorVersion ∧
      c.majorVersion = majorVersion ∧ c.pool = pool ∧ c.Body A bs := by
  refine (Reads.word16.lift.bind fun flags => Reads.word16.lift.bind fun thisClass =>
    Reads.word16.lift.bind fun superClass => (Reads.table16 .word16).lift.bind fun interfaces =>
    (Reads.readerTable16 (Member.reads h)).bind fun fields =>
    (Reads.readerTable16 (Member.reads h)).bind fun methods =>
    (Reads.readerTable16 h).bind fun attributes => Reads.pure _).congr fun c bs => ?_
  simp only [exists_and_left, exists_eq_left, exists_eq_right_right', and_assoc, List.append_nil]
  constructor
  · intro taken
    rcases taken with ⟨_, _, ⟨_, _, ⟨_, _, ⟨_, i, hi, _, tables, rfl⟩, rfl⟩, rfl⟩, rfl⟩
    obtain ⟨_, f, hf, _, ⟨_, m, hm, a, ⟨_, ha, rfl⟩, rfl⟩, rfl⟩ := tables
    exact ⟨rfl, rfl, rfl, i, f, m, a, hi, hf, hm, ha, rfl⟩
  · intro layout
    rcases layout with ⟨rfl, rfl, rfl, i, f, m, a, hi, hf, hm, ha, rfl⟩
    refine ⟨c.flags.bits, _, ⟨c.thisClass, _, ⟨c.superClass, _, ?_, rfl⟩, rfl⟩, rfl⟩
    refine ⟨c.interfaces, i, hi, _, ⟨c.fields, f, hf, _, ?_, rfl⟩, rfl⟩
    exact ⟨c.methods, m, hm, a, ⟨c.attributes, ha, rfl⟩, rfl⟩

/-- The attributes of a class, as they are read. -/
def AttributeStored (pool : Pool) (a : Attribute) (bs : Bytes) : Prop :=
  (a.Canonical pool maxNesting ∧ a.Short) ∧ Emits a.write bs

theorem reads_attribute (pool : Pool) :
    Reads (Attribute.read pool maxNesting) (AttributeStored pool) :=
  (Attribute.reads pool maxNesting).congr fun _ _ => and_assoc.symm

/-- Classes are read from the bytes that their pools and attributes may be stored in. -/
theorem reads :
    Reads ClassFile.read fun c bs => c.Layout Pool.Stored (AttributeStored c.pool) bs := by
  refine (reads_readMagic.lift.bind fun _ => Reads.word16.lift.bind fun minorVersion =>
    Reads.word16.lift.bind fun majorVersion => Pool.reads.lift.bind fun pool =>
    reads_readBody (reads_attribute pool)).congr fun c bs => ?_
  unfold Layout header
  simp only [exists_and_left, exists_eq_left, exists_const, and_assoc, List.append_assoc]
  constructor
  · intro taken
    rcases taken with ⟨_, ⟨_, _, ⟨_, _, ⟨_, x, hp, rfl, rfl, rfl, y, hb, rfl⟩, rfl⟩, rfl⟩, rfl⟩
    exact ⟨x, hp, y, hb, rfl⟩
  · intro layout
    rcases layout with ⟨x, hp, y, hb, rfl⟩
    refine ⟨_, ⟨c.minorVersion, _, ⟨c.majorVersion, _, ?_, rfl⟩, rfl⟩, rfl⟩
    exact ⟨c.pool, x, hp, rfl, rfl, rfl, y, hb, rfl⟩

/-- What is written for a class is what it may be stored in, if the class is one that reading
gives. -/
theorem layout_of_canonical {c : ClassFile} {w : Bytes} (pool : c.pool.Canonical)
    (attributes : c.Each fun a => a.Canonical c.pool maxNesting ∧ a.Short)
    (written : Emits c.write w) : c.Layout Pool.Stored (AttributeStored c.pool) w := by
  obtain ⟨x, body, emitted, layout, rfl⟩ := emits_write_iff.mp written
  have stored : c.pool.Stored x := (Pool.stored_iff_of_emits emitted).mpr pool
  exact ⟨x, body, stored, body_and_iff.mpr ⟨attributes, layout⟩, rfl⟩

theorem read_of_layout {c : ClassFile} {bs : Bytes}
    (h : c.Layout Pool.Stored (AttributeStored c.pool) bs) (rest : Bytes)
    (notices : Array Notice) :
    ∃ notices', ClassFile.read ⟨bs ++ rest, notices⟩ = .ok c ⟨rest, notices'⟩ := by
  obtain ⟨⟨_, notices'⟩, run, rfl⟩ := ClassFile.reads.complete
    (s := (⟨bs ++ rest, notices⟩ : Reading)) h rfl
  exact ⟨notices', run⟩

end ClassFile

end JvmClass
