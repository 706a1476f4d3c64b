import JvmClass.Tag
import JvmClass.Decimal.Binary

/-!
# JvmClass.Pool.Entry — what a slot of the constant pool holds.

Constants refer to one another by the numbers of their slots.  Floating-point constants are kept
as bit patterns, so that every NaN and both zeros survive.  A `long` or `double` takes two slots,
the second of which holds `unusable`; that value is not a constant and has no tag.
-/

namespace JvmClass

/-- The contents of one slot.  The `member` of a reference is the slot of the name and type it
means. -/
inductive Entry where
  | utf8 (text : String)
  | integer (value : Int32)
  | float (bits : UInt32)
  | long (value : Int64)
  | double (bits : UInt64)
  | classRef (name : UInt16)
  | string (text : UInt16)
  | fieldRef (owner member : UInt16)
  | methodRef (owner member : UInt16)
  | interfaceMethodRef (owner member : UInt16)
  | nameAndType (name descriptor : UInt16)
  | methodHandle (kind : UInt8) (target : UInt16)
  | methodType (descriptor : UInt16)
  | dynamic (bootstrap member : UInt16)
  | invokeDynamic (bootstrap member : UInt16)
  | moduleRef (name : UInt16)
  | packageRef (name : UInt16)
  | unusable
  deriving DecidableEq

namespace Entry

/-- The kind of the constant, or none for the second slot of a wide one. -/
def tag? : Entry → Option Tag
  | utf8 _ => some .utf8
  | integer _ => some .integer
  | float _ => some .float
  | long _ => some .long
  | double _ => some .double
  | classRef _ => some .classRef
  | string _ => some .string
  | fieldRef .. => some .fieldRef
  | methodRef .. => some .methodRef
  | interfaceMethodRef .. => some .interfaceMethodRef
  | nameAndType .. => some .nameAndType
  | methodHandle .. => some .methodHandle
  | methodType _ => some .methodType
  | dynamic .. => some .dynamic
  | invokeDynamic .. => some .invokeDynamic
  | moduleRef _ => some .moduleRef
  | packageRef _ => some .packageRef
  | unusable => none

/-- The constant takes two slots. -/
def isWide : Entry → Bool
  | long _ => true
  | double _ => true
  | _ => false

/-- How many slots the entry takes. -/
def width (e : Entry) : Nat :=
  if e.isWide then 2 else 1

/-- The slots the entry takes: itself, and behind a wide one a slot that holds nothing. -/
def slots (e : Entry) : List Entry :=
  if e.isWide then [e, unusable] else [e]

/-- The slots the constant refers to.  The bootstrap number of a dynamic constant is not among them,
since it counts the entries of an attribute. -/
def references : Entry → List UInt16
  | classRef name => [name]
  | string text => [text]
  | fieldRef owner member => [owner, member]
  | methodRef owner member => [owner, member]
  | interfaceMethodRef owner member => [owner, member]
  | nameAndType name descriptor => [name, descriptor]
  | methodHandle _ target => [target]
  | methodType descriptor => [descriptor]
  | dynamic _ member => [member]
  | invokeDynamic _ member => [member]
  | moduleRef name => [name]
  | packageRef name => [name]
  | _ => []

/-- Equality of constants as values: floating-point constants are compared as numbers, all others as
they are.  A NaN therefore differs from itself, and the two zeros agree. -/
def numericEq : Entry → Entry → Bool
  | float a, float b =>
    (BinaryFormat.single.value a.toNat).numericEq (BinaryFormat.single.value b.toNat)
  | double a, double b =>
    (BinaryFormat.double.value a.toNat).numericEq (BinaryFormat.double.value b.toNat)
  | a, b => a == b

/-! ## Widths -/

theorem width_pos (e : Entry) : 0 < e.width := by
  unfold width
  split <;> decide

@[simp] theorem length_slots (e : Entry) : e.slots.length = e.width := by
  unfold slots width
  split <;> rfl

end Entry

end JvmClass
