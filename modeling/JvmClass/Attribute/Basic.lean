import JvmClass.Annotation.Basic
import JvmClass.Attribute.Name
import JvmClass.Bytes.Word
import JvmClass.Flags
import JvmClass.Pool.Basic

/-!
# JvmClass.Attribute.Basic — attributes and their payloads.

An attribute is a name, given as a slot of the pool, and a payload.  A code body is a payload that
holds attributes again, so the types are defined together.  Nothing ties the payload to the name:
`Payload.belongsTo` says whether the two fit.
-/

namespace JvmClass

/-- A class that is a member of another, with the flags of its declaration.  It has no outer class
when it is not a member, and no name when it is anonymous; the number 0 marks both. -/
structure InnerClass where
  inner : UInt16
  outer : UInt16
  name : UInt16
  flags : Flags
  deriving DecidableEq

/-- The code that handles an exception of one class, or of any class if that is 0, in a stretch of
code. -/
structure Handler where
  startPc : UInt16
  endPc : UInt16
  handlerPc : UInt16
  catchType : UInt16
  deriving DecidableEq

mutual

/-- An attribute. -/
structure Attribute where
  name : UInt16
  payload : Payload

/-- What an attribute carries. -/
inductive Payload where
  | constantValue (constant : UInt16)
  | annotations (list : List AnnotationNode)
  | typeAnnotations (list : List TypeAnnotationNode)
  /-- One list for each parameter. -/
  | parameterAnnotations (parameters : List (List AnnotationNode))
  | annotationDefault (value : ElementValue)
  | nestHost (host : UInt16)
  | nestMembers (classes : List UInt16)
  /-- The method is 0 when an initialiser encloses the class. -/
  | enclosingMethod (owner method : UInt16)
  | exceptions (classes : List UInt16)
  | innerClasses (classes : List InnerClass)
  | code (body : CodeBody)
  /-- Bytes that are kept as they are. -/
  | raw (bytes : Bytes)

/-- The body of a method. -/
structure CodeBody where
  maxStack : UInt16
  maxLocals : UInt16
  code : Bytes
  handlers : List Handler
  attributes : List Attribute

end

/-! ## Kinds and names -/

namespace Payload

/-- The kind of the payload. -/
def kind : Payload → PayloadKind
  | constantValue _ => .constantValue
  | annotations _ => .annotations
  | typeAnnotations _ => .typeAnnotations
  | parameterAnnotations _ => .parameterAnnotations
  | annotationDefault _ => .annotationDefault
  | nestHost _ => .nestHost
  | nestMembers _ => .nestMembers
  | enclosingMethod .. => .enclosingMethod
  | exceptions _ => .exceptions
  | innerClasses _ => .innerClasses
  | code _ => .code
  | raw _ => .raw

/-- The payload holds bytes that nothing was read from. -/
def isRaw (p : Payload) : Bool :=
  p.kind == .raw

/-- An attribute of this name may carry the payload.  Raw bytes go with every name. -/
def belongsTo (p : Payload) (name : AttributeName) : Bool :=
  p.isRaw || name.payloadKind? == some p.kind

/-- The body, if the payload is one. -/
def body? : Payload → Option CodeBody
  | code body => some body
  | _ => none

end Payload

/-- The defined name that a slot of the pool stands for, if any. -/
def Pool.attributeName? (pool : Pool) (index : UInt16) : Option AttributeName :=
  (pool.utf8? index).bind AttributeName.ofString?

namespace Attribute

/-- The name of the attribute is a string constant with the given text. -/
def isNamed (pool : Pool) (name : String) (a : Attribute) : Bool :=
  pool.utf8? a.name == some name

/-- The first attribute of the given name. -/
def findNamed? (pool : Pool) (name : String) (attributes : List Attribute) : Option Attribute :=
  attributes.find? (isNamed pool name)

/-- The body that the first attribute called `Code` carries, if it carries one. -/
def findBody? (pool : Pool) (attributes : List Attribute) : Option CodeBody :=
  (findNamed? pool AttributeName.code.text attributes).bind fun a => a.payload.body?

end Attribute

/-! ## Equality -/

mutual

/-- Equality of attributes. -/
def Attribute.beq : Attribute → Attribute → Bool
  | ⟨name, payload⟩, ⟨name', payload'⟩ => name == name' && payload.beq payload'

/-- Equality of payloads. -/
def Payload.beq : Payload → Payload → Bool
  | .constantValue constant, .constantValue constant' => constant == constant'
  | .annotations list, .annotations list' => list == list'
  | .typeAnnotations list, .typeAnnotations list' => list == list'
  | .parameterAnnotations parameters, .parameterAnnotations parameters' =>
    parameters == parameters'
  | .annotationDefault value, .annotationDefault value' => value == value'
  | .nestHost host, .nestHost host' => host == host'
  | .nestMembers classes, .nestMembers classes' => classes == classes'
  | .enclosingMethod owner method, .enclosingMethod owner' method' =>
    owner == owner' && method == method'
  | .exceptions classes, .exceptions classes' => classes == classes'
  | .innerClasses classes, .innerClasses classes' => classes == classes'
  | .code body, .code body' => body.beq body'
  | .raw bytes, .raw bytes' => bytes == bytes'
  | _, _ => false

/-- Equality of code bodies. -/
def CodeBody.beq : CodeBody → CodeBody → Bool
  | ⟨maxStack, maxLocals, code, handlers, attributes⟩,
      ⟨maxStack', maxLocals', code', handlers', attributes'⟩ =>
    maxStack == maxStack' && maxLocals == maxLocals' && code == code' && handlers == handlers' &&
      Attribute.beqAll attributes attributes'

/-- Equality of lists of attributes. -/
def Attribute.beqAll : List Attribute → List Attribute → Bool
  | [], [] => true
  | a :: rest, b :: rest' => a.beq b && Attribute.beqAll rest rest'
  | _, _ => false

end

mutual

theorem Attribute.beq_iff : ∀ a b : Attribute, a.beq b = true ↔ a = b
  | ⟨name, payload⟩, ⟨name', payload'⟩ => by
    simp [Attribute.beq, Payload.beq_iff payload payload']

theorem Payload.beq_iff : ∀ p q : Payload, p.beq q = true ↔ p = q
  | .constantValue _, q => by cases q <;> simp [Payload.beq]
  | .annotations _, q => by cases q <;> simp [Payload.beq]
  | .typeAnnotations _, q => by cases q <;> simp [Payload.beq]
  | .parameterAnnotations _, q => by cases q <;> simp [Payload.beq]
  | .annotationDefault _, q => by cases q <;> simp [Payload.beq]
  | .nestHost _, q => by cases q <;> simp [Payload.beq]
  | .nestMembers _, q => by cases q <;> simp [Payload.beq]
  | .enclosingMethod _ _, q => by cases q <;> simp [Payload.beq]
  | .exceptions _, q => by cases q <;> simp [Payload.beq]
  | .innerClasses _, q => by cases q <;> simp [Payload.beq]
  | .code body, q => by cases q <;> simp [Payload.beq, CodeBody.beq_iff body]
  | .raw _, q => by cases q <;> simp [Payload.beq]

theorem CodeBody.beq_iff : ∀ b c : CodeBody, b.beq c = true ↔ b = c
  | ⟨_, _, _, _, attributes⟩, ⟨_, _, _, _, attributes'⟩ => by
    simp [CodeBody.beq, Attribute.beqAll_iff attributes attributes', and_assoc]

theorem Attribute.beqAll_iff :
    ∀ as bs : List Attribute, Attribute.beqAll as bs = true ↔ as = bs
  | [], bs => by cases bs <;> simp [Attribute.beqAll]
  | a :: rest, bs => by
    cases bs with
    | nil => simp [Attribute.beqAll]
    | cons b rest' =>
      simp [Attribute.beqAll, Attribute.beq_iff a b, Attribute.beqAll_iff rest rest']

end

instance : DecidableEq Attribute := fun a b => decidable_of_iff _ (Attribute.beq_iff a b)

instance : DecidableEq Payload := fun p q => decidable_of_iff _ (Payload.beq_iff p q)

end JvmClass
