import JvmClass.Annotation.Length
import JvmClass.Proofs.Annotation.Emission
import JvmClass.Proofs.Bytes.Arithmetic

/-!
# JvmClass.Proofs.Annotation.Length — the length of an annotation counts its bytes.

Lengths are computed by one recursion and bytes are written by another.  Both follow the tree, so
they agree part by part.  The sums of the first are stated over an `Arithmetic`: in words that wrap
they are the lengths that the program computes (`lengthIn_wrapping`), and in exact numbers they are
sizes, which is how many bytes are written (`size_of_emits`).
-/

namespace JvmClass

open Writer

/-- The number of bytes as a word. -/
def sizeWord (bs : Bytes) : UInt32 :=
  .ofNat bs.length

theorem toNat_sizeWord {bs : Bytes} (short : bs.length < 0x100000000) :
    (sizeWord bs).toNat = bs.length :=
  UInt32.toNat_ofNat_of_lt short

section Sums

variable {α : Type}

/-! ## Sums over a tree -/

mutual

/-- The type, the count of the pairs and the pairs. -/
def AnnotationNode.lengthIn (A : Arithmetic α) : AnnotationNode → α
  | ⟨_, pairs⟩ => A.add (A.ofNat 4) (ElementPair.lengthAllIn A pairs)

/-- A name and a value for each pair. -/
def ElementPair.lengthAllIn (A : Arithmetic α) : List ElementPair → α
  | [] => A.ofNat 0
  | ⟨_, value⟩ :: rest =>
    A.add (A.add (A.ofNat 2) (value.lengthIn A)) (ElementPair.lengthAllIn A rest)

/-- The tag and what follows it. -/
def ElementValue.lengthIn (A : Arithmetic α) : ElementValue → α
  | .primitive .. => A.ofNat 3
  | .string _ => A.ofNat 3
  | .enum .. => A.ofNat 5
  | .classInfo _ => A.ofNat 3
  | .nested value => A.add (A.ofNat 1) (value.lengthIn A)
  | .array values => A.add (A.ofNat 3) (ElementValue.lengthAllIn A values)

/-- The values of an array. -/
def ElementValue.lengthAllIn (A : Arithmetic α) : List ElementValue → α
  | [] => A.ofNat 0
  | value :: rest => A.add (value.lengthIn A) (ElementValue.lengthAllIn A rest)

end

/-- The fields of a target. -/
def Target.lengthIn (A : Arithmetic α) : Target → α
  | .empty => A.ofNat 0
  | .typeParameter _ => A.ofNat 1
  | .formalParameter _ => A.ofNat 1
  | .supertype _ => A.ofNat 2
  | .typeParameterBound .. => A.ofNat 2
  | .throwsClause _ => A.ofNat 2
  | .handler _ => A.ofNat 2
  | .instruction _ => A.ofNat 2
  | .typeArgument .. => A.ofNat 3
  | .localVariable table => A.add (A.ofNat 2) (A.records 6 table.length)

/-- The target type, the target, the path with its count, and the annotation. -/
def TypeAnnotationNode.lengthIn (A : Arithmetic α) (a : TypeAnnotationNode) : α :=
  A.add (A.add (A.add (A.ofNat 2) (a.target.lengthIn A)) (A.records 2 a.path.length))
    (a.node.lengthIn A)

/-- A count and the annotations. -/
def AnnotationNode.tableLengthIn (A : Arithmetic α) (table : List AnnotationNode) : α :=
  A.add (A.ofNat 2) (A.sum (table.map (AnnotationNode.lengthIn A)))

/-- A count and the annotations. -/
def TypeAnnotationNode.tableLengthIn (A : Arithmetic α) (table : List TypeAnnotationNode) : α :=
  A.add (A.ofNat 2) (A.sum (table.map (TypeAnnotationNode.lengthIn A)))

/-! ## The sums that the program takes -/

mutual

theorem AnnotationNode.lengthIn_wrapping : ∀ a : AnnotationNode, a.lengthIn .wrapping = a.length
  | ⟨_, pairs⟩ => congrArg (4 + ·) (ElementPair.lengthAllIn_wrapping pairs)

theorem ElementPair.lengthAllIn_wrapping :
    ∀ pairs : List ElementPair,
      ElementPair.lengthAllIn .wrapping pairs = ElementPair.lengthAll pairs
  | [] => rfl
  | ⟨name, value⟩ :: rest => by
    rw [ElementPair.lengthAllIn, ElementPair.lengthAllIn_wrapping rest, value.lengthIn_wrapping]
    rfl

theorem ElementValue.lengthIn_wrapping : ∀ v : ElementValue, v.lengthIn .wrapping = v.length
  | .primitive _ _ | .string _ | .enum _ _ | .classInfo _ => rfl
  | .nested value => congrArg (1 + ·) value.lengthIn_wrapping
  | .array values => congrArg (3 + ·) (ElementValue.lengthAllIn_wrapping values)

theorem ElementValue.lengthAllIn_wrapping :
    ∀ values : List ElementValue,
      ElementValue.lengthAllIn .wrapping values = ElementValue.lengthAll values
  | [] => rfl
  | value :: rest => by
    rw [ElementValue.lengthAllIn, ElementValue.lengthAllIn_wrapping rest, value.lengthIn_wrapping]
    rfl

end

theorem Target.lengthIn_wrapping (t : Target) : t.lengthIn .wrapping = t.length := by
  cases t <;> rfl

theorem TypeAnnotationNode.lengthIn_wrapping (a : TypeAnnotationNode) :
    a.lengthIn .wrapping = a.length := by
  rw [TypeAnnotationNode.lengthIn, Target.lengthIn_wrapping, AnnotationNode.lengthIn_wrapping]
  rfl

theorem AnnotationNode.tableLengthIn_wrapping (table : List AnnotationNode) :
    AnnotationNode.tableLengthIn .wrapping table = AnnotationNode.tableLength table := by
  rw [AnnotationNode.tableLengthIn, funext AnnotationNode.lengthIn_wrapping]
  rfl

theorem TypeAnnotationNode.tableLengthIn_wrapping (table : List TypeAnnotationNode) :
    TypeAnnotationNode.tableLengthIn .wrapping table = TypeAnnotationNode.tableLength table := by
  rw [TypeAnnotationNode.tableLengthIn, funext TypeAnnotationNode.lengthIn_wrapping]
  rfl

/-! ## Sizes -/

/-- The size of an annotation. -/
def AnnotationNode.size (a : AnnotationNode) : Nat := a.lengthIn .exact

/-- The size of a value. -/
def ElementValue.size (v : ElementValue) : Nat := v.lengthIn .exact

/-- The size of a type annotation. -/
def TypeAnnotationNode.size (a : TypeAnnotationNode) : Nat := a.lengthIn .exact

/-- The size of a table. -/
def AnnotationNode.tableSize (table : List AnnotationNode) : Nat := tableLengthIn .exact table

/-- The size of a table. -/
def TypeAnnotationNode.tableSize (table : List TypeAnnotationNode) : Nat :=
  tableLengthIn .exact table

variable {A : Arithmetic α}

mutual

theorem AnnotationNode.lengthIn_eq (faithful : A.Faithful) :
    ∀ a : AnnotationNode, a.lengthIn A = A.ofNat a.size
  | ⟨type, pairs⟩ => by
    rw [AnnotationNode.lengthIn, ElementPair.lengthAllIn_eq faithful pairs, faithful.add]
    rfl

theorem ElementPair.lengthAllIn_eq (faithful : A.Faithful) : ∀ pairs : List ElementPair,
    ElementPair.lengthAllIn A pairs = A.ofNat (ElementPair.lengthAllIn .exact pairs)
  | [] => rfl
  | ⟨name, value⟩ :: rest => by
    rw [ElementPair.lengthAllIn, ElementValue.lengthIn_eq faithful value,
      ElementPair.lengthAllIn_eq faithful rest, faithful.add, faithful.add]
    rfl

theorem ElementValue.lengthIn_eq (faithful : A.Faithful) :
    ∀ v : ElementValue, v.lengthIn A = A.ofNat v.size
  | .primitive _ _ | .string _ | .enum _ _ | .classInfo _ => rfl
  | .nested value => by
    rw [ElementValue.lengthIn, AnnotationNode.lengthIn_eq faithful value, faithful.add]
    rfl
  | .array values => by
    rw [ElementValue.lengthIn, ElementValue.lengthAllIn_eq faithful values, faithful.add]
    rfl

theorem ElementValue.lengthAllIn_eq (faithful : A.Faithful) : ∀ values : List ElementValue,
    ElementValue.lengthAllIn A values = A.ofNat (ElementValue.lengthAllIn .exact values)
  | [] => rfl
  | value :: rest => by
    rw [ElementValue.lengthAllIn, ElementValue.lengthIn_eq faithful value,
      ElementValue.lengthAllIn_eq faithful rest, faithful.add]
    rfl

end

theorem Target.lengthIn_eq (faithful : A.Faithful) (t : Target) :
    t.lengthIn A = A.ofNat (t.lengthIn .exact) := by
  cases t with
  | localVariable table =>
      rw [Target.lengthIn, faithful.records 6 _ (by decide) (by decide), faithful.add]
      rfl
  | _ => rfl

theorem TypeAnnotationNode.lengthIn_eq (faithful : A.Faithful) (a : TypeAnnotationNode) :
    a.lengthIn A = A.ofNat a.size := by
  rw [TypeAnnotationNode.lengthIn, Target.lengthIn_eq faithful, AnnotationNode.lengthIn_eq faithful,
    faithful.records 2 _ (by decide) (by decide), faithful.add, faithful.add, faithful.add]
  rfl

theorem AnnotationNode.tableLengthIn_eq (faithful : A.Faithful) (table : List AnnotationNode) :
    AnnotationNode.tableLengthIn A table = A.ofNat (AnnotationNode.tableSize table) := by
  rw [AnnotationNode.tableLengthIn,
    faithful.sum_map fun a _ => AnnotationNode.lengthIn_eq faithful a, faithful.add]
  rfl

theorem TypeAnnotationNode.tableLengthIn_eq (faithful : A.Faithful)
    (table : List TypeAnnotationNode) :
    TypeAnnotationNode.tableLengthIn A table = A.ofNat (TypeAnnotationNode.tableSize table) := by
  rw [TypeAnnotationNode.tableLengthIn,
    faithful.sum_map fun a _ => TypeAnnotationNode.lengthIn_eq faithful a, faithful.add]
  rfl

end Sums

/-! ## The bytes of values and annotations -/

mutual

theorem AnnotationNode.size_of_emits :
    ∀ {a : AnnotationNode} {bs : Bytes}, Emits a.write bs → bs.length = a.size
  | ⟨type, pairs⟩, bs, h => by
    obtain ⟨_, ⟨-, body, series, rfl⟩, rfl⟩ := AnnotationNode.emits_write_iff.mp h
    rw [List.length_append, List.length_append, ElementPair.sizeAll_of_series series,
      ← Nat.add_assoc]
    rfl

theorem ElementPair.sizeAll_of_series :
    ∀ {pairs : List ElementPair} {bs : Bytes}, Series (fun p => Emits p.write) pairs bs →
      bs.length = ElementPair.lengthAllIn .exact pairs
  | [], _, .nil => rfl
  | ⟨name, value⟩ :: rest, _, .cons first others => by
    obtain ⟨body, written, rfl⟩ := ElementPair.emits_write_iff.mp first
    rw [List.length_append, List.length_append, ElementValue.size_of_emits written,
      ElementPair.sizeAll_of_series others]
    rfl

theorem ElementValue.size_of_emits :
    ∀ {v : ElementValue} {bs : Bytes}, Emits v.write bs → bs.length = v.size
  | .primitive _ _, _, h | .string _, _, h | .classInfo _, _, h => by
    obtain ⟨_, written, rfl⟩ := ElementValue.emits_write_iff.mp h
    rw [emits_word16_iff.mp written]
    rfl
  | .enum _ _, _, h => by
    obtain ⟨_, written, rfl⟩ := ElementValue.emits_write_iff.mp h
    obtain ⟨_, _, first, second, rfl⟩ := emits_bind_iff.mp written
    rw [emits_word16_iff.mp first, emits_word16_iff.mp second]
    rfl
  | .nested value, _, h => by
    obtain ⟨_, written, rfl⟩ := ElementValue.emits_write_iff.mp h
    rw [List.length_cons, AnnotationNode.size_of_emits (a := value) written, Nat.add_comm]
    rfl
  | .array values, _, h => by
    obtain ⟨_, written, rfl⟩ := ElementValue.emits_write_iff.mp h
    obtain ⟨-, body, series, rfl⟩ := emits_table_iff.mp written
    rw [List.length_cons, List.length_append, ElementValue.sizeAll_of_series series, Nat.add_comm,
      ← Nat.add_assoc]
    rfl

theorem ElementValue.sizeAll_of_series :
    ∀ {values : List ElementValue} {bs : Bytes}, Series (fun v => Emits v.write) values bs →
      bs.length = ElementValue.lengthAllIn .exact values
  | [], _, .nil => rfl
  | value :: rest, _, .cons first others => by
    rw [List.length_append, ElementValue.size_of_emits first,
      ElementValue.sizeAll_of_series others]
    rfl

end

/-! ## The bytes of type annotations and tables -/

theorem LocalRange.size_of_emits {r : LocalRange} {bs : Bytes} (h : Emits r.write bs) :
    bs.length = 6 := by
  simp only [LocalRange.write, emits_bind_iff, emits_word16_iff, exists_and_left,
    exists_eq_left] at h
  rw [h]
  rfl

theorem PathStep.size_of_emits {s : PathStep} {bs : Bytes} (h : Emits s.write bs) :
    bs.length = 2 := by
  simp only [PathStep.write, emits_bind_iff, emits_byte_iff, exists_and_left, exists_eq_left] at h
  rw [h]
  rfl

theorem Target.size_of_emits {t : Target} {bs : Bytes} (h : Emits t.write bs) :
    bs.length = t.lengthIn .exact := by
  cases t with
  | empty =>
      rw [emits_pure_iff.mp h]
      rfl
  | typeParameter parameter | formalParameter parameter =>
      rw [emits_byte_iff.mp h]
      rfl
  | supertype index | throwsClause index | handler index | instruction index =>
      rw [emits_word16_iff.mp h]
      rfl
  | typeParameterBound parameter bound =>
      obtain ⟨_, _, first, second, rfl⟩ := emits_bind_iff.mp h
      rw [emits_byte_iff.mp first, emits_byte_iff.mp second]
      rfl
  | typeArgument offset argument =>
      obtain ⟨_, _, first, second, rfl⟩ := emits_bind_iff.mp h
      rw [emits_word16_iff.mp first, emits_byte_iff.mp second]
      rfl
  | localVariable table =>
      exact (emits_table_iff.mp h).length_eq fun _ _ => LocalRange.size_of_emits

theorem TypeAnnotationNode.size_of_emits {a : TypeAnnotationNode} {bs : Bytes}
    (h : Emits a.write bs) : bs.length = a.size := by
  obtain ⟨target, _, node, ht, ⟨-, path, series, rfl⟩, hn, rfl⟩ :=
    TypeAnnotationNode.emits_write_iff.mp h
  have steps : path.length = 2 * a.path.length :=
    series.length_eq fun _ _ => PathStep.size_of_emits
  show _ = 2 + a.target.lengthIn .exact + 2 * a.path.length + a.node.size
  simp only [List.length_cons, List.length_append, Target.size_of_emits ht, steps,
    AnnotationNode.size_of_emits hn]
  omega

theorem AnnotationNode.tableSize_of_emits {table : List AnnotationNode} {bs : Bytes}
    (h : Emits (AnnotationNode.writeTable table) bs) :
    bs.length = AnnotationNode.tableSize table :=
  (emits_table_iff.mp h).length_eq_sum fun _ _ => AnnotationNode.size_of_emits

theorem TypeAnnotationNode.tableSize_of_emits {table : List TypeAnnotationNode} {bs : Bytes}
    (h : Emits (TypeAnnotationNode.writeTable table) bs) :
    bs.length = TypeAnnotationNode.tableSize table :=
  (emits_table_iff.mp h).length_eq_sum fun _ _ => TypeAnnotationNode.size_of_emits

end JvmClass
