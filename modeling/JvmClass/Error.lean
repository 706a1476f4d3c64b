import JvmClass.Text.Quoted

/-!
# JvmClass.Error — why reading or writing a class file stops.

Each error is a cause; `message` is its wording.  The causes `unknownElement`, `unknownTarget` and
`nestingTooDeep` arise only inside attribute payloads, where they make the reader keep the payload
as it is.
-/

namespace JvmClass

/-- How many levels of code bodies, nested annotations and arrays the reader follows. -/
def maxNesting : Nat := 64

/-- Why reading stopped. -/
inductive ReadError where
  /-- The input ended early. -/
  | endOfInput
  /-- The file does not start with the class file magic. -/
  | badMagic (found : UInt32)
  /-- The byte is no constant's tag. -/
  | unknownTag (number : UInt8)
  /-- The payload of a string constant holds no string. -/
  | malformedText
  /-- The byte starts no element value. -/
  | unknownElement (tag : UInt8)
  /-- The byte selects no type annotation target. -/
  | unknownTarget (targetType : UInt8)
  /-- More than `maxNesting` levels. -/
  | nestingTooDeep
  deriving DecidableEq

/-- The wording of a read error. -/
def ReadError.message : ReadError → String
  | endOfInput => "failed to fill whole buffer"
  | badMagic found => "Invalid magic identifier: 0x" ++ Text.upperHex found.toNat
  | unknownTag number => "Invalid cp info tag: " ++ toString number.toNat
  | malformedText => "Invalid modified UTF-8 constant: could not convert CESU-8 data to UTF-8"
  | unknownElement tag => "Invalid element value tag: " ++ Text.quoteChar (.ofNat tag.toNat)
  | unknownTarget targetType =>
    "Invalid type annotation target type: 0x" ++ Text.upperHex targetType.toNat
  | nestingTooDeep => "Attribute nesting exceeds " ++ toString maxNesting ++ " levels"

/-- A count or a length that is too large for the field that has to hold it. -/
structure Overflow where
  count : Nat
  deriving DecidableEq

/-- The wording of an overflow. -/
def Overflow.message (o : Overflow) : String :=
  "Length " ++ toString o.count ++ " does not fit its length field"

/-- Why writing stopped. -/
inductive WriteError where
  /-- The output takes no more bytes. -/
  | outputFull
  /-- A count or length does not fit its field. -/
  | overflow (cause : Overflow)
  deriving DecidableEq

/-- The wording of a write error. -/
def WriteError.message : WriteError → String
  | outputFull => "failed to write whole buffer"
  | overflow cause => cause.message

end JvmClass
