import JvmClass.Bytes.Writer
import JvmClass.Pool.Basic
import JvmClass.Text.ModifiedUtf8

/-!
# JvmClass.Pool.Write — constants and pools as bytes.

The size goes first, then the constants in order.  A slot that holds nothing is passed over, since
the wide constant before it implies it.
-/

namespace JvmClass

namespace Entry

/-- The text of a string constant: its size and its payload. -/
def writeText (text : String) : Writer Unit := do
  let payload := Text.encode text
  Writer.count16 payload.length
  Writer.bytes payload

/-- Two slot numbers. -/
def writePair (first second : UInt16) : Writer Unit := do
  Writer.word16 first
  Writer.word16 second

/-- The contents of a constant. -/
def writeContents : Entry → Writer Unit
  | utf8 text => writeText text
  | integer value => Writer.word32 value.toUInt32
  | float bits => Writer.word32 bits
  | long value => Writer.word64 value.toUInt64
  | double bits => Writer.word64 bits
  | classRef name => Writer.word16 name
  | string text => Writer.word16 text
  | fieldRef owner member => writePair owner member
  | methodRef owner member => writePair owner member
  | interfaceMethodRef owner member => writePair owner member
  | nameAndType name descriptor => writePair name descriptor
  | methodHandle kind target => do
    Writer.byte kind
    Writer.word16 target
  | methodType descriptor => Writer.word16 descriptor
  | dynamic bootstrap member => writePair bootstrap member
  | invokeDynamic bootstrap member => writePair bootstrap member
  | moduleRef name => Writer.word16 name
  | packageRef name => Writer.word16 name
  | unusable => pure ()

/-- A constant: the number of its kind and its contents. -/
def write (e : Entry) : Writer Unit :=
  match e.tag? with
  | none => pure ()
  | some tag => do
    Writer.byte tag.number
    e.writeContents

end Entry

/-- A pool: its size and its constants. -/
def Pool.write (p : Pool) : Writer Unit := do
  Writer.count16 p.size
  p.slots.toList.forM Entry.write

end JvmClass
