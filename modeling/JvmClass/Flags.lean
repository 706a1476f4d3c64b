/-
# JvmClass.Flags — access flags.

A class, a field, a method and an inner class each carry sixteen flag bits.  What a bit means
depends on which of the four carries it, so some bits have two names; `Flags.named` lists both.
-/

namespace JvmClass

/-- Sixteen access flags. -/
structure Flags where
  bits : UInt16
  deriving DecidableEq

namespace Flags

/-- The names of the flags with their bits. -/
def named : List (String × UInt16) :=
  [("PUBLIC", 0x0001), ("PRIVATE", 0x0002), ("PROTECTED", 0x0004), ("STATIC", 0x0008),
    ("FINAL", 0x0010), ("SUPER", 0x0020), ("SYNCHRONIZED", 0x0020), ("VOLATILE", 0x0040),
    ("BRIDGE", 0x0040), ("TRANSIENT", 0x0080), ("VARARGS", 0x0080), ("NATIVE", 0x0100),
    ("INTERFACE", 0x0200), ("ABSTRACT", 0x0400), ("STRICT", 0x0800), ("SYNTHETIC", 0x1000),
    ("ANNOTATION", 0x2000), ("ENUM", 0x4000), ("MODULE", 0x8000)]

/-- No flag. -/
def none : Flags := ⟨0⟩

/-- Every flag. -/
def all : Flags := ⟨0xFFFF⟩

/-- The flags of either. -/
def union (a b : Flags) : Flags := ⟨a.bits ||| b.bits⟩

/-- The flags of both. -/
def inter (a b : Flags) : Flags := ⟨a.bits &&& b.bits⟩

/-- The flags of the first that are not of the second. -/
def diff (a b : Flags) : Flags := ⟨a.bits &&& ~~~b.bits⟩

/-- The flags of exactly one. -/
def symmDiff (a b : Flags) : Flags := ⟨a.bits ^^^ b.bits⟩

/-- The flags that are not set. -/
def compl (a : Flags) : Flags := ⟨~~~a.bits⟩

/-- Every flag of the second is one of the first. -/
def contains (a b : Flags) : Bool := a.inter b == b

/-- Some flag is of both. -/
def intersects (a b : Flags) : Bool := a.inter b != none

/-- The names of the flags that are set, in the order of `named`. -/
def describe (a : Flags) : String :=
  let set := named.filter fun f => a.contains ⟨f.2⟩
  if set.isEmpty then "(empty)" else " | ".intercalate (set.map (·.1))

end Flags

end JvmClass
