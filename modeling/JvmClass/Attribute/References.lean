import JvmClass.Attribute.Basic
import JvmClass.Pool.Closure
import JvmClass.Reference

/-!
# JvmClass.Attribute.References — the references an attribute holds.

`references` lists every field of a tree that holds the number of a slot, in the order in which the
fields are stored.  Instructions are not decoded, so of a code body only the handlers and the
attributes contribute, and raw bytes contribute nothing.  `accesses` is the set of the slots an
attribute depends on.
-/

namespace JvmClass

/-! ## Annotations -/

mutual

/-- The type of the annotation, then its pairs. -/
def AnnotationNode.references : AnnotationNode → List Reference
  | ⟨type, pairs⟩ => .required .utf8 type :: ElementPair.referencesAll pairs

/-- The name of each pair and its value. -/
def ElementPair.referencesAll : List ElementPair → List Reference
  | [] => []
  | ⟨name, value⟩ :: rest =>
    .required .utf8 name :: (value.references ++ ElementPair.referencesAll rest)

/-- What the value names. -/
def ElementValue.references : ElementValue → List Reference
  | .primitive _ constant => [⟨constant, .primitive, false⟩]
  | .string text => [.required .utf8 text]
  | .enum type constant => [.required .utf8 type, .required .utf8 constant]
  | .classInfo constant => [.required .classRef constant]
  | .nested value => value.references
  | .array values => ElementValue.referencesAll values

/-- What each value of an array names. -/
def ElementValue.referencesAll : List ElementValue → List Reference
  | [] => []
  | value :: rest => value.references ++ ElementValue.referencesAll rest

end

/-- The references of the annotation.  The place it stands at holds none. -/
def TypeAnnotationNode.references (a : TypeAnnotationNode) : List Reference :=
  a.node.references

/-! ## Tables of classes and handlers -/

/-- The class, its outer class and its name. -/
def InnerClass.references (c : InnerClass) : List Reference :=
  [.required .classRef c.inner, .orAbsent .classRef c.outer, .orAbsent .utf8 c.name]

/-- The class of the exceptions that the handler takes. -/
def Handler.reference (h : Handler) : Reference :=
  .orAbsent .classRef h.catchType

/-! ## Attributes -/

mutual

/-- The name of the attribute, then its payload. -/
def Attribute.references : Attribute → List Reference
  | ⟨name, payload⟩ => .required .utf8 name :: payload.references

/-- The references of a payload. -/
def Payload.references : Payload → List Reference
  | .constantValue constant => [⟨constant, .constantValue, false⟩]
  | .annotations list => list.flatMap AnnotationNode.references
  | .typeAnnotations list => list.flatMap TypeAnnotationNode.references
  | .parameterAnnotations parameters => parameters.flatten.flatMap AnnotationNode.references
  | .annotationDefault value => value.references
  | .nestHost host => [.required .classRef host]
  | .nestMembers classes => classes.map (.required .classRef)
  | .enclosingMethod owner method => [.required .classRef owner, .orAbsent .nameAndType method]
  | .exceptions classes => classes.map (.required .classRef)
  | .innerClasses classes => classes.flatMap InnerClass.references
  | .code body => body.references
  | .raw _ => []

/-- The handlers of a body, then its attributes. -/
def CodeBody.references : CodeBody → List Reference
  | ⟨_, _, _, handlers, attributes⟩ =>
    handlers.map Handler.reference ++ Attribute.referencesAll attributes

/-- The references of each attribute. -/
def Attribute.referencesAll : List Attribute → List Reference
  | [] => []
  | a :: rest => a.references ++ Attribute.referencesAll rest

end

/-! ## The slots depended on -/

/-- The slots that references name.  The number 0 names none. -/
def accessesOf (references : List Reference) : IndexSet :=
  .ofReferences (references.map (·.index))

/-- The slots an attribute depends on. -/
def Attribute.accesses (a : Attribute) : IndexSet :=
  accessesOf a.references

end JvmClass
