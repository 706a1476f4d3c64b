import JvmClass.Annotation.Shape
import JvmClass.Bytes.Writer

/-!
# JvmClass.Annotation.Write — annotations as bytes.

Every table is preceded by its count, in two bytes except for the path of a type annotation, whose
count takes one.  The tag of a primitive value and the target type are written as they are, whether
or not they fit what follows.
-/

namespace JvmClass

mutual

/-- The type, the count of the pairs and the pairs. -/
def AnnotationNode.write : AnnotationNode → Writer Unit
  | ⟨type, pairs⟩ => do
    Writer.word16 type
    Writer.count16 pairs.length
    ElementPair.writeAll pairs

/-- A name and a value for each pair. -/
def ElementPair.writeAll : List ElementPair → Writer Unit
  | [] => pure ()
  | ⟨name, value⟩ :: rest => do
    Writer.word16 name
    value.write
    ElementPair.writeAll rest

/-- The tag and what it announces. -/
def ElementValue.write (v : ElementValue) : Writer Unit := do
  Writer.byte v.tag
  match v with
  | .primitive _ constant => Writer.word16 constant
  | .string text => Writer.word16 text
  | .enum type constant =>
    Writer.word16 type
    Writer.word16 constant
  | .classInfo constant => Writer.word16 constant
  | .nested value => value.write
  | .array values =>
    Writer.count16 values.length
    ElementValue.writeAll values

/-- The values of an array. -/
def ElementValue.writeAll : List ElementValue → Writer Unit
  | [] => pure ()
  | value :: rest => do
    value.write
    ElementValue.writeAll rest

end

/-- A start, a length and a variable. -/
def LocalRange.write (r : LocalRange) : Writer Unit := do
  Writer.word16 r.startPc
  Writer.word16 r.length
  Writer.word16 r.index

/-- The fields of a target. -/
def Target.write : Target → Writer Unit
  | .typeParameter parameter => Writer.byte parameter
  | .supertype index => Writer.word16 index
  | .typeParameterBound parameter bound => do
    Writer.byte parameter
    Writer.byte bound
  | .empty => pure ()
  | .formalParameter parameter => Writer.byte parameter
  | .throwsClause index => Writer.word16 index
  | .localVariable table => do
    Writer.count16 table.length
    table.forM LocalRange.write
  | .handler index => Writer.word16 index
  | .instruction offset => Writer.word16 offset
  | .typeArgument offset argument => do
    Writer.word16 offset
    Writer.byte argument

/-- A kind and an argument. -/
def PathStep.write (s : PathStep) : Writer Unit := do
  Writer.byte s.kind
  Writer.byte s.argument

/-- The target type, the target, the path and the annotation. -/
def TypeAnnotationNode.write (a : TypeAnnotationNode) : Writer Unit := do
  Writer.byte a.targetType
  a.target.write
  Writer.count8 a.path.length
  a.path.forM PathStep.write
  a.node.write

/-- A count and the annotations. -/
def AnnotationNode.writeTable (table : List AnnotationNode) : Writer Unit := do
  Writer.count16 table.length
  table.forM AnnotationNode.write

/-- A count and the annotations. -/
def TypeAnnotationNode.writeTable (table : List TypeAnnotationNode) : Writer Unit := do
  Writer.count16 table.length
  table.forM TypeAnnotationNode.write

end JvmClass
