import JvmClass.Annotation.Target

/-!
# JvmClass.Annotation.Basic — annotations and the values of their elements.

An annotation pairs element names with values, and a value can hold a further annotation or an array
of values; so the three types are defined together.  Equality of such trees is decided by `beq`,
and `beq_iff` says that it decides exactly equality.
-/

namespace JvmClass

mutual

/-- An annotation: the type of its interface and the values of its elements. -/
structure AnnotationNode where
  type : UInt16
  pairs : List ElementPair

/-- The name of an element and its value. -/
structure ElementPair where
  name : UInt16
  value : ElementValue

/-- The value of an element. -/
inductive ElementValue where
  /-- A number, a character or a truth value; the tag tells which of the eight primitive types. -/
  | primitive (tag : UInt8) (constant : UInt16)
  /-- A string. -/
  | string (text : UInt16)
  /-- A constant of an enumeration. -/
  | enum (type constant : UInt16)
  /-- A class. -/
  | classInfo (constant : UInt16)
  /-- A further annotation. -/
  | nested (value : AnnotationNode)
  /-- An array of values. -/
  | array (values : List ElementValue)

end

/-- An annotation on a type, with the place of that type.  The target type is the number that
tells on disk which target follows; the two need not fit each other in a tree that was not read.
-/
structure TypeAnnotationNode where
  targetType : UInt8
  target : Target
  path : List PathStep
  node : AnnotationNode

/-! ## Equality -/

mutual

/-- Equality of annotations. -/
def AnnotationNode.beq : AnnotationNode → AnnotationNode → Bool
  | ⟨type, pairs⟩, ⟨type', pairs'⟩ => type == type' && ElementPair.beqAll pairs pairs'

/-- Equality of lists of pairs. -/
def ElementPair.beqAll : List ElementPair → List ElementPair → Bool
  | [], [] => true
  | ⟨name, value⟩ :: rest, ⟨name', value'⟩ :: rest' =>
    name == name' && value.beq value' && ElementPair.beqAll rest rest'
  | _, _ => false

/-- Equality of values. -/
def ElementValue.beq : ElementValue → ElementValue → Bool
  | .primitive tag constant, .primitive tag' constant' => tag == tag' && constant == constant'
  | .string text, .string text' => text == text'
  | .enum type constant, .enum type' constant' => type == type' && constant == constant'
  | .classInfo constant, .classInfo constant' => constant == constant'
  | .nested value, .nested value' => value.beq value'
  | .array values, .array values' => ElementValue.beqAll values values'
  | _, _ => false

/-- Equality of lists of values. -/
def ElementValue.beqAll : List ElementValue → List ElementValue → Bool
  | [], [] => true
  | value :: rest, value' :: rest' => value.beq value' && ElementValue.beqAll rest rest'
  | _, _ => false

end

mutual

theorem AnnotationNode.beq_iff : ∀ a b : AnnotationNode, a.beq b = true ↔ a = b
  | ⟨type, pairs⟩, ⟨type', pairs'⟩ => by
    simp [AnnotationNode.beq, ElementPair.beqAll_iff pairs pairs']

theorem ElementPair.beqAll_iff :
    ∀ ps qs : List ElementPair, ElementPair.beqAll ps qs = true ↔ ps = qs
  | [], qs => by cases qs <;> simp [ElementPair.beqAll]
  | ⟨name, value⟩ :: rest, qs => by
    cases qs with
    | nil => simp [ElementPair.beqAll]
    | cons q rest' =>
      obtain ⟨name', value'⟩ := q
      simp [ElementPair.beqAll, ElementValue.beq_iff value value',
        ElementPair.beqAll_iff rest rest']

theorem ElementValue.beq_iff : ∀ v w : ElementValue, v.beq w = true ↔ v = w
  | .primitive _ _, w => by cases w <;> simp [ElementValue.beq]
  | .string _, w => by cases w <;> simp [ElementValue.beq]
  | .enum _ _, w => by cases w <;> simp [ElementValue.beq]
  | .classInfo _, w => by cases w <;> simp [ElementValue.beq]
  | .nested value, w => by
    cases w <;> simp [ElementValue.beq, AnnotationNode.beq_iff value]
  | .array values, w => by
    cases w <;> simp [ElementValue.beq, ElementValue.beqAll_iff values]

theorem ElementValue.beqAll_iff :
    ∀ vs ws : List ElementValue, ElementValue.beqAll vs ws = true ↔ vs = ws
  | [], ws => by cases ws <;> simp [ElementValue.beqAll]
  | value :: rest, ws => by
    cases ws with
    | nil => simp [ElementValue.beqAll]
    | cons value' rest' =>
      simp [ElementValue.beqAll, ElementValue.beq_iff value value',
        ElementValue.beqAll_iff rest rest']

end

instance : DecidableEq AnnotationNode := fun a b => decidable_of_iff _ (AnnotationNode.beq_iff a b)

instance : DecidableEq ElementValue := fun v w => decidable_of_iff _ (ElementValue.beq_iff v w)

deriving instance DecidableEq for TypeAnnotationNode

end JvmClass
