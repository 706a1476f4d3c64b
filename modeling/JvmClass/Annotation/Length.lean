import JvmClass.Annotation.Basic

/-!
# JvmClass.Annotation.Length — how many bytes an annotation takes.

Lengths are counted in the 32-bit words in which an attribute stores its length, so a tree of more
than four gigabytes is given the remainder of its size.
-/

namespace JvmClass

/-- The number of elements of a table as a 32-bit word. -/
def countWord {α : Type} (table : List α) : UInt32 :=
  .ofNat table.length

/-- The sum of lengths. -/
def sumWords (lengths : List UInt32) : UInt32 :=
  lengths.foldr (· + ·) 0

mutual

/-- The type, the count of the pairs and the pairs. -/
def AnnotationNode.length : AnnotationNode → UInt32
  | ⟨_, pairs⟩ => 4 + ElementPair.lengthAll pairs

/-- A name and a value for each pair. -/
def ElementPair.lengthAll : List ElementPair → UInt32
  | [] => 0
  | ⟨_, value⟩ :: rest => (2 + value.length) + ElementPair.lengthAll rest

/-- The tag and what follows it. -/
def ElementValue.length : ElementValue → UInt32
  | .primitive .. => 3
  | .string _ => 3
  | .enum .. => 5
  | .classInfo _ => 3
  | .nested value => 1 + value.length
  | .array values => 3 + ElementValue.lengthAll values

/-- The values of an array. -/
def ElementValue.lengthAll : List ElementValue → UInt32
  | [] => 0
  | value :: rest => value.length + ElementValue.lengthAll rest

end

/-- The fields of a target. -/
def Target.length : Target → UInt32
  | .empty => 0
  | .typeParameter _ => 1
  | .formalParameter _ => 1
  | .supertype _ => 2
  | .typeParameterBound .. => 2
  | .throwsClause _ => 2
  | .handler _ => 2
  | .instruction _ => 2
  | .typeArgument .. => 3
  | .localVariable table => 2 + 6 * countWord table

/-- The target type, the target, the path with its count, and the annotation. -/
def TypeAnnotationNode.length (a : TypeAnnotationNode) : UInt32 :=
  2 + a.target.length + 2 * countWord a.path + a.node.length

/-- A count and the annotations. -/
def AnnotationNode.tableLength (table : List AnnotationNode) : UInt32 :=
  2 + sumWords (table.map AnnotationNode.length)

/-- A count and the annotations. -/
def TypeAnnotationNode.tableLength (table : List TypeAnnotationNode) : UInt32 :=
  2 + sumWords (table.map TypeAnnotationNode.length)

end JvmClass
