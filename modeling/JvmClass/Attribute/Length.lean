import JvmClass.Annotation.Length
import JvmClass.Attribute.Basic

/-!
# JvmClass.Attribute.Length — the length field of an attribute.

An attribute stores the length of its payload in front of it, so that a reader can pass over what
it does not know.  `Payload.length` is that length, counted in the 32 bits of the field.  Raw
bytes and code bodies can outgrow the field, and `Payload.checkedLength` refuses those that do.
-/

namespace JvmClass

mutual

/-- The length of a payload. -/
def Payload.length : Payload → UInt32
  | .constantValue _ => 2
  | .annotations list => AnnotationNode.tableLength list
  | .typeAnnotations list => TypeAnnotationNode.tableLength list
  | .parameterAnnotations parameters => 1 + sumWords (parameters.map AnnotationNode.tableLength)
  | .annotationDefault value => value.length
  | .nestHost _ => 2
  | .nestMembers classes => 2 + 2 * countWord classes
  | .enclosingMethod .. => 4
  | .exceptions classes => 2 + 2 * countWord classes
  | .innerClasses classes => 2 + 8 * countWord classes
  | .code body => body.length
  | .raw bytes => countWord bytes

/-- The two limits, the code and the handlers with their counts, and the attributes. -/
def CodeBody.length : CodeBody → UInt32
  | ⟨_, _, code, handlers, attributes⟩ =>
    10 + countWord code + 8 * countWord handlers + (2 + Attribute.lengthAll attributes)

/-- For each attribute its name, its length field and its payload. -/
def Attribute.lengthAll : List Attribute → UInt32
  | [] => 0
  | ⟨_, payload⟩ :: rest => (6 + payload.length) + Attribute.lengthAll rest

end

/-- A count and the attributes. -/
def Attribute.tableLength (table : List Attribute) : UInt32 :=
  2 + Attribute.lengthAll table

/-- A length as it is stored, if it fits the field. -/
def lengthField (n : Nat) : Except Overflow UInt32 :=
  if n < 0x100000000 then .ok (.ofNat n) else .error ⟨n⟩

mutual

/-- The length of a payload, unless raw bytes or code bodies in it outgrow the field. -/
def Payload.checkedLength : Payload → Except Overflow UInt32
  | .raw bytes => lengthField bytes.length
  | .code body => body.checkedLength
  | .constantValue constant => .ok (Payload.constantValue constant).length
  | .annotations list => .ok (Payload.annotations list).length
  | .typeAnnotations list => .ok (Payload.typeAnnotations list).length
  | .parameterAnnotations parameters => .ok (Payload.parameterAnnotations parameters).length
  | .annotationDefault value => .ok (Payload.annotationDefault value).length
  | .nestHost host => .ok (Payload.nestHost host).length
  | .nestMembers classes => .ok (Payload.nestMembers classes).length
  | .enclosingMethod owner method => .ok (Payload.enclosingMethod owner method).length
  | .exceptions classes => .ok (Payload.exceptions classes).length
  | .innerClasses classes => .ok (Payload.innerClasses classes).length

/-- The length of a body.  An attribute in it that does not fit is reported before the body. -/
def CodeBody.checkedLength : CodeBody → Except Overflow UInt32
  | ⟨_, _, code, handlers, attributes⟩ => do
    let nested ← Attribute.checkedLengthAll attributes
    lengthField (12 + code.length + 8 * handlers.length + nested)

/-- The size of a list of attributes. -/
def Attribute.checkedLengthAll : List Attribute → Except Overflow Nat
  | [] => .ok 0
  | ⟨_, payload⟩ :: rest => do
    let length ← payload.checkedLength
    let others ← Attribute.checkedLengthAll rest
    .ok (6 + length.toNat + others)

end

end JvmClass
