import JvmClass.Annotation.Basic

/-!
# JvmClass.Annotation.Shape — the numbers that announce what follows.

On disk one byte before an element value tells which of six shapes it has, and one byte before a
target tells which of ten.  `ofTag?` and `ofType?` read these bytes; `shape` gives the shape of a
value or target, so that `ofTag? v.tag = some v.shape` says that the tag of a value announces it
rightly.
-/

namespace JvmClass

/-! ## Element values -/

/-- The shapes of element values. -/
inductive ElementShape where
  | primitive
  | string
  | enum
  | classInfo
  | nested
  | array
  deriving DecidableEq, Repr

namespace ElementShape

/-- The tags of the primitive types: the letters B, C, D, F, I, J, S and Z. -/
def primitiveTags : List UInt8 :=
  [0x42, 0x43, 0x44, 0x46, 0x49, 0x4A, 0x53, 0x5A]

/-- The shape that a tag announces, if any. -/
def ofTag? (tag : UInt8) : Option ElementShape :=
  if tag ∈ primitiveTags then some primitive
  else if tag = 0x73 then some string
  else if tag = 0x65 then some enum
  else if tag = 0x63 then some classInfo
  else if tag = 0x40 then some nested
  else if tag = 0x5B then some array
  else none

end ElementShape

namespace ElementValue

/-- The shape of the value. -/
def shape : ElementValue → ElementShape
  | primitive .. => .primitive
  | string _ => .string
  | enum .. => .enum
  | classInfo _ => .classInfo
  | nested _ => .nested
  | array _ => .array

/-- The byte written in front of the value: the letters s, e and c, an at sign or an opening
bracket, and for a primitive value the tag that it carries. -/
def tag : ElementValue → UInt8
  | primitive tag _ => tag
  | string _ => 0x73
  | enum .. => 0x65
  | classInfo _ => 0x63
  | nested _ => 0x40
  | array _ => 0x5B

end ElementValue

/-! ## Targets -/

/-- The shapes of targets. -/
inductive TargetShape where
  | typeParameter
  | supertype
  | typeParameterBound
  | empty
  | formalParameter
  | throwsClause
  | localVariable
  | handler
  | instruction
  | typeArgument
  deriving DecidableEq, Repr

namespace TargetShape

/-- The shape that a target type selects, if any. -/
def ofType? (targetType : UInt8) : Option TargetShape :=
  let n := targetType.toNat
  if n ≤ 0x01 then some typeParameter
  else if n = 0x10 then some supertype
  else if 0x11 ≤ n ∧ n ≤ 0x12 then some typeParameterBound
  else if 0x13 ≤ n ∧ n ≤ 0x15 then some empty
  else if n = 0x16 then some formalParameter
  else if n = 0x17 then some throwsClause
  else if 0x40 ≤ n ∧ n ≤ 0x41 then some localVariable
  else if n = 0x42 then some handler
  else if 0x43 ≤ n ∧ n ≤ 0x46 then some instruction
  else if 0x47 ≤ n ∧ n ≤ 0x4B then some typeArgument
  else none

end TargetShape

/-- The shape of the target. -/
def Target.shape : Target → TargetShape
  | .typeParameter _ => .typeParameter
  | .supertype _ => .supertype
  | .typeParameterBound .. => .typeParameterBound
  | .empty => .empty
  | .formalParameter _ => .formalParameter
  | .throwsClause _ => .throwsClause
  | .localVariable _ => .localVariable
  | .handler _ => .handler
  | .instruction _ => .instruction
  | .typeArgument .. => .typeArgument

end JvmClass
