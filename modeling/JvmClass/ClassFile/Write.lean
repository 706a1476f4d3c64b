import JvmClass.Attribute.Write
import JvmClass.ClassFile.Read
import JvmClass.Pool.Write

/-!
# JvmClass.ClassFile.Write — classes as bytes.

Everything is written in one pass, in the order in which it is read.
-/

namespace JvmClass

/-- The flags, the name, the descriptor and the attributes. -/
def Member.write (m : Member) : Writer Unit := do
  Writer.word16 m.flags.bits
  Writer.word16 m.name
  Writer.word16 m.descriptor
  Attribute.writeTable m.attributes

/-- A count and the members. -/
def Member.writeTable (table : List Member) : Writer Unit := do
  Writer.count16 table.length
  table.forM Member.write

namespace ClassFile

/-- A class. -/
def write (c : ClassFile) : Writer Unit := do
  Writer.word32 magic
  Writer.word16 c.minorVersion
  Writer.word16 c.majorVersion
  c.pool.write
  Writer.word16 c.flags.bits
  Writer.word16 c.thisClass
  Writer.word16 c.superClass
  writeIndices c.interfaces
  Member.writeTable c.fields
  Member.writeTable c.methods
  Attribute.writeTable c.attributes

end ClassFile

end JvmClass
