/-
# JvmClass.Annotation.Target — what a type annotation is attached to.

A type annotation names the type it stands at in two steps.  Its target is a place in the
declaration or in the code that mentions a type, and its path leads from there into the type.
-/

namespace JvmClass

/-- A stretch of code during which a local variable has its value. -/
structure LocalRange where
  startPc : UInt16
  length : UInt16
  index : UInt16
  deriving DecidableEq

/-- The place that mentions the annotated type. -/
inductive Target where
  /-- The declaration of a type parameter. -/
  | typeParameter (parameter : UInt8)
  /-- An entry of the extends or implements clause. -/
  | supertype (index : UInt16)
  /-- A bound of a type parameter. -/
  | typeParameterBound (parameter bound : UInt8)
  /-- The type of a field, a result or a receiver. -/
  | empty
  /-- A formal parameter. -/
  | formalParameter (parameter : UInt8)
  /-- An entry of the throws clause. -/
  | throwsClause (index : UInt16)
  /-- A local variable. -/
  | localVariable (table : List LocalRange)
  /-- A handler of the exception table. -/
  | handler (index : UInt16)
  /-- An instruction. -/
  | instruction (offset : UInt16)
  /-- A type argument of an instruction. -/
  | typeArgument (offset : UInt16) (argument : UInt8)
  deriving DecidableEq

/-- One step into a type. -/
structure PathStep where
  kind : UInt8
  argument : UInt8
  deriving DecidableEq

end JvmClass
