/-
# JvmClass.Tag — the kinds of constant a pool can hold.

Every constant in a class file starts with one byte that names its kind.  `Tag.number` is that
byte and `Tag.ofNumber?` reads it back; the numbers leave gaps (2, 13 and 14 name nothing), so
reading can fail.  Tags are ordered by their numbers, which is the order in which a range of tags
is meant.
-/

namespace JvmClass

/-- The kind of a constant, in the order of the numbers that stand for the kinds on disk. -/
inductive Tag where
  | utf8
  | integer
  | float
  | long
  | double
  | classRef
  | string
  | fieldRef
  | methodRef
  | interfaceMethodRef
  | nameAndType
  | methodHandle
  | methodType
  | dynamic
  | invokeDynamic
  | moduleRef
  | packageRef
  deriving DecidableEq, Repr

namespace Tag

/-- All tags, in ascending order of their numbers. -/
def all : List Tag :=
  [utf8, integer, float, long, double, classRef, string, fieldRef, methodRef, interfaceMethodRef,
    nameAndType, methodHandle, methodType, dynamic, invokeDynamic, moduleRef, packageRef]

/-- The byte that stands for the tag on disk. -/
def number : Tag → UInt8
  | utf8 => 1
  | integer => 3
  | float => 4
  | long => 5
  | double => 6
  | classRef => 7
  | string => 8
  | fieldRef => 9
  | methodRef => 10
  | interfaceMethodRef => 11
  | nameAndType => 12
  | methodHandle => 15
  | methodType => 16
  | dynamic => 17
  | invokeDynamic => 18
  | moduleRef => 19
  | packageRef => 20

/-- The tag a byte stands for, if any. -/
def ofNumber? (n : UInt8) : Option Tag :=
  all.find? fun t => t.number == n

/-- The name under which a tag appears in messages. -/
def name : Tag → String
  | utf8 => "Utf8"
  | integer => "Integer"
  | float => "Float"
  | long => "Long"
  | double => "Double"
  | classRef => "Class"
  | string => "String"
  | fieldRef => "FieldRef"
  | methodRef => "MethodRef"
  | interfaceMethodRef => "InterfaceMethodRef"
  | nameAndType => "NameAndType"
  | methodHandle => "MethodHandle"
  | methodType => "MethodType"
  | dynamic => "Dynamic"
  | invokeDynamic => "InvokeDynamic"
  | moduleRef => "Module"
  | packageRef => "Package"

/-- `t.between low high`: the number of `t` lies between those of `low` and `high`, both included.
-/
def between (t low high : Tag) : Bool :=
  low.number ≤ t.number && t.number ≤ high.number

/-! ## Reading a tag number back -/

@[simp] theorem ofNumber?_number (t : Tag) : ofNumber? t.number = some t := by
  cases t <;> decide

theorem number_of_ofNumber? {n : UInt8} {t : Tag} (h : ofNumber? n = some t) : t.number = n := by
  have hit := List.find?_some h
  exact eq_of_beq hit

theorem ofNumber?_eq_some_iff {n : UInt8} {t : Tag} : ofNumber? n = some t ↔ n = t.number :=
  ⟨fun h => (number_of_ofNumber? h).symm, fun h => h ▸ ofNumber?_number t⟩

end Tag

end JvmClass
