import JvmClass.Error
import JvmClass.Bytes.Word

/-!
# JvmClass.Bytes.Writer — handing bytes to an output of bounded size.

A writer is a step on a `Sink`, which remembers the bytes it took and may have a capacity.  Bytes
that do not fit are refused, but those before them are kept; so a step that fails still leaves its
mark. The empty sequence always fits.  Counts pass through `count8` and `count16`, which refuse
what the field cannot hold before anything of the field is written.
-/

namespace JvmClass

/-- An output: the bytes it took so far, and how many it takes in all if that is bounded. -/
structure Sink where
  written : Array UInt8
  capacity : Option Nat

namespace Sink

/-- An output without bound. -/
def unbounded : Sink := ⟨#[], none⟩

/-- An output that takes `limit` bytes. -/
def bounded (limit : Nat) : Sink := ⟨#[], some limit⟩

end Sink

/-- A step that hands bytes to an output. -/
abbrev Writer := EStateM WriteError Sink

namespace Writer

/-- Hands the bytes to the output, or as many of them as it takes. -/
def bytes (bs : Bytes) : Writer Unit := fun s =>
  match s.capacity with
  | none => .ok () { s with written := s.written ++ bs }
  | some limit =>
    let room := limit - s.written.size
    if bs.length ≤ room then .ok () { s with written := s.written ++ bs }
    else .error .outputFull { s with written := s.written ++ bs.take room }

/-- One byte. -/
def byte (b : UInt8) : Writer Unit :=
  bytes [b]

/-- A big-endian word of two bytes. -/
def word16 (w : UInt16) : Writer Unit :=
  bytes (.ofWord16 w)

/-- A big-endian word of four bytes. -/
def word32 (w : UInt32) : Writer Unit :=
  bytes (.ofWord32 w)

/-- A big-endian word of eight bytes. -/
def word64 (w : UInt64) : Writer Unit :=
  bytes (.ofWord64 w)

/-- A count in a field of one byte. -/
def count8 (n : Nat) : Writer Unit :=
  if n < 0x100 then byte (.ofNat n) else throw (.overflow ⟨n⟩)

/-- A count in a field of two bytes. -/
def count16 (n : Nat) : Writer Unit :=
  if n < 0x10000 then word16 (.ofNat n) else throw (.overflow ⟨n⟩)

/-- A count in a field of four bytes. -/
def count32 (n : Nat) : Writer Unit :=
  if n < 0x100000000 then word32 (.ofNat n) else throw (.overflow ⟨n⟩)

/-- The result of a step and the bytes in the output after it. -/
def run (w : Writer Unit) (s : Sink) : Except WriteError Unit × Sink :=
  match w s with
  | .ok _ s => (.ok (), s)
  | .error e s => (.error e, s)

/-! ## What was written -/

/-- An output without bound takes all bytes. -/
theorem bytes_unbounded (bs : Bytes) (written : Array UInt8) :
    bytes bs ⟨written, none⟩ = .ok () ⟨written ++ bs, none⟩ := rfl

end Writer

end JvmClass
