import JvmClass.Attribute.Read
import JvmClass.Pool.Read

/-!
# JvmClass.ClassFile.Read — classes from bytes.

The pool comes before everything that refers to it, so one pass suffices.  Bytes behind the class
are left unread.
-/

namespace JvmClass

/-- The number that starts every class file. -/
def magic : UInt32 := 0xCAFEBABE

/-- Takes the magic number off the front of the input. -/
def readMagic : Decoder Unit := do
  let found ← Decoder.word32
  if found = magic then pure () else throw (.badMagic found)

/-- A count and the attributes. -/
def Attribute.readTable (pool : Pool) : Reader (List Attribute) :=
  Reader.table16 (Attribute.read pool maxNesting)

/-- The flags, the name, the descriptor and the attributes. -/
def Member.read (pool : Pool) : Reader Member := do
  let flags ← Reader.lift Decoder.word16
  let name ← Reader.lift Decoder.word16
  let descriptor ← Reader.lift Decoder.word16
  let attributes ← Attribute.readTable pool
  pure ⟨⟨flags⟩, name, descriptor, attributes⟩

namespace ClassFile

/-- A class. -/
def read : Reader ClassFile := do
  Reader.lift readMagic
  let minorVersion ← Reader.lift Decoder.word16
  let majorVersion ← Reader.lift Decoder.word16
  let pool ← Reader.lift Pool.read
  let flags ← Reader.lift Decoder.word16
  let thisClass ← Reader.lift Decoder.word16
  let superClass ← Reader.lift Decoder.word16
  let interfaces ← Reader.lift (Decoder.table16 Decoder.word16)
  let fields ← Reader.table16 (Member.read pool)
  let methods ← Reader.table16 (Member.read pool)
  let attributes ← Attribute.readTable pool
  pure
    { minorVersion, majorVersion, pool, flags := ⟨flags⟩, thisClass, superClass, interfaces, fields,
      methods, attributes }

/-- The class at the front of the input. -/
def parse (input : Bytes) : Noted (Except ReadError ClassFile) :=
  read.run input

end ClassFile

end JvmClass
