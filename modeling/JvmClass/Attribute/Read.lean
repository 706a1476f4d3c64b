import JvmClass.Annotation.Read
import JvmClass.Notice

/-!
# JvmClass.Attribute.Read — attributes from bytes.

An attribute states the length of its payload, so the payload can be read on its own.  When it
cannot be, or when it does not fill its length, the bytes are kept raw and a notice says so; the
attributes behind it are read as if nothing had happened.  Only the end of the input can stop the
reader here.

Bodies hold attributes again, and each body uses up one level, as nested values do.
-/

namespace JvmClass

/-- The state of a reader: the bytes to be read and the notices so far. -/
structure Reading where
  rest : Bytes
  notices : Array Notice

/-- A step that takes a value off the front of the input and may leave notices. -/
abbrev Reader := EStateM ReadError Reading

namespace Reader

/-- A decoder as a reader that leaves no notice. -/
def lift {α : Type} (d : Decoder α) : Reader α := fun s =>
  match d s.rest with
  | .ok a rest => .ok a { s with rest }
  | .error e rest => .error e { s with rest }

/-- A table: its count in two bytes, and that many elements. -/
def table16 {α : Type} (element : Reader α) : Reader (List α) := do
  let count ← lift Decoder.word16
  repeated element count.toNat

/-- Reads the whole input. -/
def run {α : Type} (r : Reader α) (input : Bytes) : Noted (Except ReadError α) :=
  match r ⟨input, #[]⟩ with
  | .ok a s => ⟨.ok a, s.notices.toList⟩
  | .error e s => ⟨.error e, s.notices.toList⟩

end Reader

/-- The four slots and flags of an inner class. -/
def InnerClass.read : Decoder InnerClass :=
  InnerClass.mk <$> Decoder.word16 <*> Decoder.word16 <*> Decoder.word16 <*>
    (Flags.mk <$> Decoder.word16)

/-- The stretch of code, the handler and the class of exceptions. -/
def Handler.read : Decoder Handler :=
  Handler.mk <$> Decoder.word16 <*> Decoder.word16 <*> Decoder.word16 <*> Decoder.word16

namespace Payload

/-- A payload of the given kind, where `body` reads a body. -/
def readWith (levels : Nat) (body : Reader CodeBody) : PayloadKind → Reader Payload
  | .constantValue => Reader.lift (constantValue <$> Decoder.word16)
  | .annotations => Reader.lift (annotations <$> Decoder.table16 (AnnotationNode.read levels))
  | .typeAnnotations =>
    Reader.lift (typeAnnotations <$> Decoder.table16 (TypeAnnotationNode.read levels))
  | .parameterAnnotations =>
    Reader.lift (parameterAnnotations <$>
      Decoder.table8 (Decoder.table16 (AnnotationNode.read levels)))
  | .annotationDefault => Reader.lift (annotationDefault <$> ElementValue.read levels)
  | .nestHost => Reader.lift (nestHost <$> Decoder.word16)
  | .nestMembers => Reader.lift (nestMembers <$> Decoder.table16 Decoder.word16)
  | .enclosingMethod => Reader.lift (enclosingMethod <$> Decoder.word16 <*> Decoder.word16)
  | .exceptions => Reader.lift (exceptions <$> Decoder.table16 Decoder.word16)
  | .innerClasses => Reader.lift (innerClasses <$> Decoder.table16 InnerClass.read)
  | .code => code <$> body
  | .raw => Reader.lift (raw <$> Decoder.remaining)

/-- Reads a payload from exactly the given bytes, or keeps them.  The bytes behind them are not
touched. -/
def contained (name : AttributeName) (bytes : Bytes) (payload : Reader Payload) :
    Reader Payload := fun s =>
  match payload ⟨bytes, s.notices⟩ with
  | .ok p ⟨[], notices⟩ => .ok p { s with notices }
  | .ok _ ⟨_ :: _, notices⟩ =>
    .ok (raw bytes) { s with notices := notices.push (.trailingBytes name) }
  | .error cause ⟨_, notices⟩ =>
    .ok (raw bytes) { s with notices := notices.push (.malformed name cause) }

end Payload

namespace Attribute

/-- The name of an attribute and the bytes of its payload. -/
def readHeader : Decoder (UInt16 × Bytes) := do
  let name ← Decoder.word16
  let length ← Decoder.word32
  let bytes ← Decoder.take length.toNat
  pure (name, bytes)

/-- An attribute.  The payload is read if the name is one whose contents are modelled. -/
def readWith (pool : Pool) (payload : PayloadKind → Reader Payload) : Reader Attribute := do
  let (index, bytes) ← Reader.lift readHeader
  match pool.attributeName? index with
  | none => pure ⟨index, .raw bytes⟩
  | some name =>
    match name.payloadKind? with
    | none => pure ⟨index, .raw bytes⟩
    | some kind => Attribute.mk index <$> Payload.contained name bytes (payload kind)

end Attribute

/-- A body whose attributes are read by the given step. -/
def CodeBody.readWith (element : Reader Attribute) : Reader CodeBody := do
  let maxStack ← Reader.lift Decoder.word16
  let maxLocals ← Reader.lift Decoder.word16
  let size ← Reader.lift Decoder.word32
  let code ← Reader.lift (Decoder.take size.toNat)
  let handlers ← Reader.lift (Decoder.table16 Handler.read)
  let attributes ← Reader.table16 element
  pure ⟨maxStack, maxLocals, code, handlers, attributes⟩

/-- An attribute with at most `levels` levels below it. -/
def Attribute.read (pool : Pool) : (levels : Nat) → Reader Attribute
  | 0 => readWith pool (Payload.readWith 0 (throw .nestingTooDeep))
  | levels + 1 =>
    readWith pool (Payload.readWith (levels + 1) (CodeBody.readWith (Attribute.read pool levels)))

/-- A body with at most `levels` levels below its attributes. -/
def CodeBody.read (pool : Pool) (levels : Nat) : Reader CodeBody :=
  CodeBody.readWith (Attribute.read pool levels)

end JvmClass
