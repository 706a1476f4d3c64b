import JvmClass.Annotation.Length
import JvmClass.Annotation.Write
import JvmClass.Proofs.Bytes.Emission

/-!
# JvmClass.Proofs.Annotation.Emission — the bytes of annotations.

For each writer of an annotation's parts: it is plain, and what it emits is what its fields emit in
their order.  Tables of pairs and of values are written by recursion on the tree; they are shown to
be tables of their elements like all others.
-/

namespace JvmClass

open Writer

/-! ## Values and annotations -/

/-- A name and a value. -/
def ElementPair.write (p : ElementPair) : Writer Unit := do
  Writer.word16 p.name
  p.value.write

/-- What stands behind the tag of a value. -/
def ElementValue.writeContents : ElementValue → Writer Unit
  | .primitive _ constant => Writer.word16 constant
  | .string text => Writer.word16 text
  | .enum type constant => do
    Writer.word16 type
    Writer.word16 constant
  | .classInfo constant => Writer.word16 constant
  | .nested value => value.write
  | .array values => do
    Writer.count16 values.length
    values.forM ElementValue.write

theorem ElementPair.writeAll_eq (pairs : List ElementPair) :
    ElementPair.writeAll pairs = pairs.forM ElementPair.write := by
  induction pairs with
  | nil => rfl
  | cons p pairs ih =>
      obtain ⟨name, value⟩ := p
      rw [ElementPair.writeAll, ih]
      exact (bind_assoc (Writer.word16 name) _ _).symm

theorem ElementValue.writeAll_eq (values : List ElementValue) :
    ElementValue.writeAll values = values.forM ElementValue.write := by
  induction values with
  | nil => rfl
  | cons v values ih =>
      rw [ElementValue.writeAll, ih]
      rfl

theorem AnnotationNode.write_eq (a : AnnotationNode) :
    a.write = (do
      Writer.word16 a.type
      Writer.count16 a.pairs.length
      a.pairs.forM ElementPair.write) := by
  obtain ⟨type, pairs⟩ := a
  rw [AnnotationNode.write, ElementPair.writeAll_eq]

theorem ElementValue.write_eq (v : ElementValue) :
    v.write = (do
      Writer.byte v.tag
      v.writeContents) := by
  cases v with
  | array values => rw [ElementValue.write, ElementValue.writeAll_eq]; rfl
  | _ => rw [ElementValue.write]; rfl

mutual

theorem AnnotationNode.plain_write : ∀ a : AnnotationNode, Plain a.write
  | ⟨type, pairs⟩ => by
    have := ElementPair.plain_writeAll pairs
    unfold AnnotationNode.write
    infer_instance

theorem ElementPair.plain_writeAll : ∀ pairs : List ElementPair, Plain (ElementPair.writeAll pairs)
  | [] => plain_pure
  | ⟨name, value⟩ :: rest => by
    have := value.plain_write
    have := ElementPair.plain_writeAll rest
    unfold ElementPair.writeAll
    infer_instance

theorem ElementValue.plain_write : ∀ v : ElementValue, Plain v.write
  | .primitive _ _ | .string _ | .enum _ _ | .classInfo _ => by
    unfold ElementValue.write
    infer_instance
  | .nested value => by
    have := value.plain_write
    unfold ElementValue.write
    infer_instance
  | .array values => by
    have := ElementValue.plain_writeAll values
    unfold ElementValue.write
    infer_instance

theorem ElementValue.plain_writeAll :
    ∀ values : List ElementValue, Plain (ElementValue.writeAll values)
  | [] => plain_pure
  | value :: rest => by
    have := value.plain_write
    have := ElementValue.plain_writeAll rest
    unfold ElementValue.writeAll
    infer_instance

end

instance AnnotationNode.plain (a : AnnotationNode) : Plain a.write := a.plain_write

instance ElementValue.plain (v : ElementValue) : Plain v.write := v.plain_write

instance ElementPair.plain (p : ElementPair) : Plain p.write := by
  unfold ElementPair.write
  infer_instance

instance ElementValue.plain_writeContents (v : ElementValue) : Plain v.writeContents := by
  cases v <;> unfold ElementValue.writeContents <;> infer_instance

theorem ElementPair.emits_write_iff {p : ElementPair} {bs : Bytes} :
    Emits p.write bs ↔ ∃ body, Emits p.value.write body ∧ bs = .ofWord16 p.name ++ body := by
  unfold ElementPair.write
  rw [emits_bind_iff]
  simp only [emits_word16_iff, exists_and_left, exists_eq_left]

theorem AnnotationNode.emits_write_iff {a : AnnotationNode} {bs : Bytes} :
    Emits a.write bs ↔
      ∃ body, Table (fun p => Emits (ElementPair.write p)) a.pairs body ∧
        bs = .ofWord16 a.type ++ body := by
  rw [AnnotationNode.write_eq, emits_bind_iff]
  simp only [emits_word16_iff, emits_table_iff, exists_and_left, exists_eq_left]

theorem ElementValue.emits_write_iff {v : ElementValue} {bs : Bytes} :
    Emits v.write bs ↔ ∃ body, Emits v.writeContents body ∧ bs = v.tag :: body := by
  rw [ElementValue.write_eq, emits_bind_iff]
  simp only [emits_byte_iff, exists_and_left, exists_eq_left, List.cons_append, List.nil_append]

/-! ## Type annotations and tables -/

instance LocalRange.plain (r : LocalRange) : Plain r.write := by
  unfold LocalRange.write
  infer_instance

instance Target.plain (t : Target) : Plain t.write := by
  cases t <;> unfold Target.write <;> infer_instance

instance PathStep.plain (s : PathStep) : Plain s.write := by
  unfold PathStep.write
  infer_instance

instance TypeAnnotationNode.plain (a : TypeAnnotationNode) : Plain a.write := by
  unfold TypeAnnotationNode.write
  infer_instance

theorem TypeAnnotationNode.emits_write_iff {a : TypeAnnotationNode} {bs : Bytes} :
    Emits a.write bs ↔ ∃ target path node, Emits a.target.write target ∧
      ShortTable (fun s => Emits (PathStep.write s)) a.path path ∧ Emits a.node.write node ∧
      bs = a.targetType :: (target ++ (path ++ node)) := by
  simp only [TypeAnnotationNode.write, emits_bind_iff, emits_byte_iff, emits_count8_iff,
    emits_forM_iff, ShortTable, exists_and_left, exists_eq_left, and_assoc]
  constructor
  · intro written
    rcases written with ⟨_, ⟨target, ht, small, _, ⟨_, ⟨path, hp, node, hn, rfl⟩, rfl⟩, rfl⟩, rfl⟩
    exact ⟨target, ht, small, _, ⟨path, hp, rfl⟩, node, hn, rfl⟩
  · intro layout
    rcases layout with ⟨target, ht, small, _, ⟨path, hp, rfl⟩, node, hn, rfl⟩
    exact ⟨_, ⟨target, ht, small, _, ⟨_, ⟨path, hp, node, hn, rfl⟩, rfl⟩, rfl⟩, rfl⟩

instance AnnotationNode.plain_writeTable (table : List AnnotationNode) :
    Plain (AnnotationNode.writeTable table) := by
  unfold AnnotationNode.writeTable
  infer_instance

instance TypeAnnotationNode.plain_writeTable (table : List TypeAnnotationNode) :
    Plain (TypeAnnotationNode.writeTable table) := by
  unfold TypeAnnotationNode.writeTable
  infer_instance

end JvmClass
