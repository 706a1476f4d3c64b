import JvmClass.Annotation.Write
import JvmClass.Attribute.Length

/-!
# JvmClass.Attribute.Write — attributes as bytes.

An attribute is written as its name, the length of its payload and the payload.  The length is
settled before anything is written, so an attribute that is too long leaves no trace in the
output.
-/

namespace JvmClass

/-- A count and that many slot numbers. -/
def writeIndices (indices : List UInt16) : Writer Unit := do
  Writer.count16 indices.length
  indices.forM Writer.word16

/-- The class, its outer class, its name and its flags. -/
def InnerClass.write (c : InnerClass) : Writer Unit := do
  Writer.word16 c.inner
  Writer.word16 c.outer
  Writer.word16 c.name
  Writer.word16 c.flags.bits

/-- The stretch of code, the handler and the class of exceptions. -/
def Handler.write (h : Handler) : Writer Unit := do
  Writer.word16 h.startPc
  Writer.word16 h.endPc
  Writer.word16 h.handlerPc
  Writer.word16 h.catchType

/-- The length of a payload.  Nothing is written when it does not fit its field. -/
def Payload.writeLength (p : Payload) : Writer UInt32 :=
  match p.checkedLength with
  | .ok length => pure length
  | .error overflow => throw (.overflow overflow)

mutual

/-- The name, the length of the payload and the payload. -/
def Attribute.write : Attribute → Writer Unit
  | ⟨name, payload⟩ => do
    let length ← payload.writeLength
    Writer.word16 name
    Writer.word32 length
    payload.write

/-- A payload without its header. -/
def Payload.write : Payload → Writer Unit
  | .constantValue constant => Writer.word16 constant
  | .annotations list => AnnotationNode.writeTable list
  | .typeAnnotations list => TypeAnnotationNode.writeTable list
  | .parameterAnnotations parameters => do
    Writer.count8 parameters.length
    parameters.forM AnnotationNode.writeTable
  | .annotationDefault value => value.write
  | .nestHost host => Writer.word16 host
  | .nestMembers classes => writeIndices classes
  | .enclosingMethod owner method => do
    Writer.word16 owner
    Writer.word16 method
  | .exceptions classes => writeIndices classes
  | .innerClasses classes => do
    Writer.count16 classes.length
    classes.forM InnerClass.write
  | .code body => body.write
  | .raw bytes => Writer.bytes bytes

/-- The two limits, the code, the handlers and the attributes. -/
def CodeBody.write : CodeBody → Writer Unit
  | ⟨maxStack, maxLocals, code, handlers, attributes⟩ => do
    Writer.word16 maxStack
    Writer.word16 maxLocals
    Writer.count32 code.length
    Writer.bytes code
    Writer.count16 handlers.length
    handlers.forM Handler.write
    Writer.count16 attributes.length
    Attribute.writeAll attributes

/-- One attribute after the other. -/
def Attribute.writeAll : List Attribute → Writer Unit
  | [] => pure ()
  | a :: rest => do
    a.write
    Attribute.writeAll rest

end

/-- A count and the attributes. -/
def Attribute.writeTable (table : List Attribute) : Writer Unit := do
  Writer.count16 table.length
  Attribute.writeAll table

end JvmClass
