import JvmClass.Pool.Entry
import JvmClass.Decimal.Text
import JvmClass.Text.Quoted

/-!
# JvmClass.Pool.EntryText — constants as messages show them.

A constant is shown as its kind with its contents: one value in parentheses, a record in braces
with the name of each field, or a record within parentheses where the kind wraps one.
-/

namespace JvmClass

namespace Entry

/-- A record: its fields with their values, in braces. -/
def showRecord (name : String) (fields : List (String × Nat)) : String :=
  let shown := fields.map fun f => f.1 ++ ": " ++ toString f.2
  name ++ " \x7b " ++ ", ".intercalate shown ++ " \x7d"

/-- A kind that wraps one value. -/
def showWrapped (name value : String) : String :=
  name ++ "(" ++ value ++ ")"

/-- The record of a member reference. -/
def showMember (owner member : UInt16) : String :=
  showRecord "RefInfo" [("class_index", owner.toNat), ("name_and_type_index", member.toNat)]

/-- The record of a dynamic constant. -/
def showDynamic (bootstrap member : UInt16) : String :=
  showRecord "DynamicInfo"
    [("bootstrap_method_attr_index", bootstrap.toNat), ("name_and_type_index", member.toNat)]

/-- The constant as messages show it. -/
def describe : Entry → String
  | utf8 text => showWrapped "Utf8" (Text.quote text)
  | integer value => showWrapped "Integer" (toString value.toInt)
  | float bits => showWrapped "Float" (NumberStyle.message.write .single bits.toNat)
  | long value => showWrapped "Long" (toString value.toInt)
  | double bits => showWrapped "Double" (NumberStyle.message.write .double bits.toNat)
  | classRef name => showWrapped "Class" (showRecord "ClassInfo" [("name_index", name.toNat)])
  | string text => showRecord "String" [("string_index", text.toNat)]
  | fieldRef owner member => showWrapped "FieldRef" (showMember owner member)
  | methodRef owner member => showWrapped "MethodRef" (showMember owner member)
  | interfaceMethodRef owner member =>
    showWrapped "InterfaceMethodRef" (showMember owner member)
  | nameAndType name descriptor =>
    showWrapped "NameAndType" (showRecord "NameAndTypeInfo"
      [("name_index", name.toNat), ("descriptor_index", descriptor.toNat)])
  | methodHandle kind target =>
    showWrapped "MethodHandle" (showRecord "MethodHandleInfo"
      [("reference_kind", kind.toNat), ("reference_index", target.toNat)])
  | methodType descriptor =>
    showWrapped "MethodType" (showRecord "MethodTypeInfo"
      [("descriptor_index", descriptor.toNat)])
  | dynamic bootstrap member => showWrapped "Dynamic" (showDynamic bootstrap member)
  | invokeDynamic bootstrap member =>
    showWrapped "InvokeDynamic" (showDynamic bootstrap member)
  | moduleRef name => showRecord "Module" [("name_index", name.toNat)]
  | packageRef name => showRecord "Package" [("name_index", name.toNat)]
  | unusable => "Unusable"

end Entry

end JvmClass
