import JvmClass.Bytes.Decoder
import JvmClass.Pool.Basic
import JvmClass.Text.ModifiedUtf8

/-!
# JvmClass.Pool.Read — constants and pools from bytes.

A pool is stored as its size and then its constants, where the second slot of a wide constant is
not stored.  Reading goes on until the slots of the constants read fill the stored size, so a wide
constant in the last slot makes the pool one larger than the size says.
-/

namespace JvmClass

namespace Entry

/-- The text of a string constant: its size and its payload. -/
def readText : Decoder String := do
  let size ← Decoder.word16
  let payload ← Decoder.take size.toNat
  match Text.decode payload with
  | some text => pure text
  | none => throw .malformedText

/-- The contents of a constant of the given kind. -/
def readContents : Tag → Decoder Entry
  | .utf8 => utf8 <$> readText
  | .integer => do pure (integer (.ofUInt32 (← Decoder.word32)))
  | .float => float <$> Decoder.word32
  | .long => do pure (long (.ofUInt64 (← Decoder.word64)))
  | .double => double <$> Decoder.word64
  | .classRef => classRef <$> Decoder.word16
  | .string => string <$> Decoder.word16
  | .fieldRef => fieldRef <$> Decoder.word16 <*> Decoder.word16
  | .methodRef => methodRef <$> Decoder.word16 <*> Decoder.word16
  | .interfaceMethodRef => interfaceMethodRef <$> Decoder.word16 <*> Decoder.word16
  | .nameAndType => nameAndType <$> Decoder.word16 <*> Decoder.word16
  | .methodHandle => methodHandle <$> Decoder.byte <*> Decoder.word16
  | .methodType => methodType <$> Decoder.word16
  | .dynamic => dynamic <$> Decoder.word16 <*> Decoder.word16
  | .invokeDynamic => invokeDynamic <$> Decoder.word16 <*> Decoder.word16
  | .moduleRef => moduleRef <$> Decoder.word16
  | .packageRef => packageRef <$> Decoder.word16

/-- A constant: the number of its kind and its contents. -/
def read : Decoder Entry := do
  let number ← Decoder.byte
  match Tag.ofNumber? number with
  | some tag => readContents tag
  | none => throw (.unknownTag number)

/-- As many constants as it takes to fill the given number of slots.  A wide constant fills two, or
the last one if only that is left. -/
def readFilling : (slots : Nat) → Decoder (List Entry)
  | 0 => pure []
  | slots + 1 => do
    let entry ← read
    if entry.isWide then
      match slots with
      | 0 => pure [entry]
      | slots + 1 =>
        let rest ← readFilling slots
        pure (entry :: rest)
    else
      let rest ← readFilling slots
      pure (entry :: rest)

end Entry

/-- A pool: its size and its constants.  A stored size of 0 is read like 1. -/
def Pool.read : Decoder Pool := do
  let size ← Decoder.word16
  let entries ← Entry.readFilling (size.toNat - 1)
  pure (.ofEntries entries)

end JvmClass
