import JvmClass.Annotation.Shape
import JvmClass.Bytes.Decoder

/-!
# JvmClass.Annotation.Read — annotations from bytes.

Values nest, and the depth is bounded: a step down, into an annotation or an array within a value,
uses up one of the levels that remain, and fails before it reads anything when none does.  Reading
is therefore by recursion on the levels.  An annotation that stands on its own costs no level.
-/

namespace JvmClass

namespace Decoder

/-- A table: its count in two bytes, and that many elements. -/
def table16 {α : Type} (element : Decoder α) : Decoder (List α) := do
  let count ← word16
  repeated element count.toNat

/-- A table whose count takes one byte. -/
def table8 {α : Type} (element : Decoder α) : Decoder (List α) := do
  let count ← byte
  repeated element count.toNat

end Decoder

/-! ## Values and annotations -/

/-- A name and a value. -/
def ElementPair.readWith (value : Decoder ElementValue) : Decoder ElementPair :=
  ElementPair.mk <$> Decoder.word16 <*> value

/-- An annotation whose values are read by the given step. -/
def AnnotationNode.readWith (value : Decoder ElementValue) : Decoder AnnotationNode :=
  AnnotationNode.mk <$> Decoder.word16 <*> Decoder.table16 (ElementPair.readWith value)

namespace ElementValue

/-- The rest of a value behind its tag, where `below` reads a value one level down. -/
def readShape (tag : UInt8) (below : Option (Decoder ElementValue)) :
    ElementShape → Decoder ElementValue
  | .primitive => primitive tag <$> Decoder.word16
  | .string => string <$> Decoder.word16
  | .enum => enum <$> Decoder.word16 <*> Decoder.word16
  | .classInfo => classInfo <$> Decoder.word16
  | .nested =>
    match below with
    | some value => nested <$> AnnotationNode.readWith value
    | none => throw .nestingTooDeep
  | .array =>
    match below with
    | some value => array <$> Decoder.table16 value
    | none => throw .nestingTooDeep

/-- A value, where `below` reads a value one level down, if there is a level left. -/
def readWith (below : Option (Decoder ElementValue)) : Decoder ElementValue := do
  let tag ← Decoder.byte
  match ElementShape.ofTag? tag with
  | some shape => readShape tag below shape
  | none => throw (.unknownElement tag)

/-- A value with at most `levels` levels below it. -/
def read : (levels : Nat) → Decoder ElementValue
  | 0 => readWith none
  | levels + 1 => readWith (some (read levels))

end ElementValue

/-- An annotation with at most `levels` levels below its values. -/
def AnnotationNode.read (levels : Nat) : Decoder AnnotationNode :=
  AnnotationNode.readWith (ElementValue.read levels)

/-! ## Type annotations -/

/-- A start, a length and a variable. -/
def LocalRange.read : Decoder LocalRange :=
  LocalRange.mk <$> Decoder.word16 <*> Decoder.word16 <*> Decoder.word16

/-- The fields of a target of the given shape. -/
def Target.read : TargetShape → Decoder Target
  | .typeParameter => typeParameter <$> Decoder.byte
  | .supertype => supertype <$> Decoder.word16
  | .typeParameterBound => typeParameterBound <$> Decoder.byte <*> Decoder.byte
  | .empty => pure empty
  | .formalParameter => formalParameter <$> Decoder.byte
  | .throwsClause => throwsClause <$> Decoder.word16
  | .localVariable => localVariable <$> Decoder.table16 LocalRange.read
  | .handler => handler <$> Decoder.word16
  | .instruction => instruction <$> Decoder.word16
  | .typeArgument => typeArgument <$> Decoder.word16 <*> Decoder.byte

/-- A kind and an argument. -/
def PathStep.read : Decoder PathStep :=
  PathStep.mk <$> Decoder.byte <*> Decoder.byte

/-- The target type, the target that it selects, the path and the annotation. -/
def TypeAnnotationNode.read (levels : Nat) : Decoder TypeAnnotationNode := do
  let targetType ← Decoder.byte
  match TargetShape.ofType? targetType with
  | none => throw (.unknownTarget targetType)
  | some shape =>
    let target ← Target.read shape
    let path ← Decoder.table8 PathStep.read
    let node ← AnnotationNode.read levels
    pure ⟨targetType, target, path, node⟩

end JvmClass
