import JvmClass.Attribute.Basic

/-!
# JvmClass.ClassFile.Basic — classes and their members.

A class file holds a pool and, in terms of its slots, the class itself: flags, names, fields,
methods and attributes.  Fields and methods have the same parts, so both are `Member`s.
`Location` tells where in a class an attribute stands; members are identified by their position.
-/

namespace JvmClass

/-- A field or a method. -/
structure Member where
  flags : Flags
  name : UInt16
  descriptor : UInt16
  attributes : List Attribute
  deriving DecidableEq

/-- A class. -/
structure ClassFile where
  minorVersion : UInt16
  majorVersion : UInt16
  pool : Pool
  flags : Flags
  thisClass : UInt16
  /-- The class it extends, or 0 for the one class that extends none. -/
  superClass : UInt16
  interfaces : List UInt16
  fields : List Member
  methods : List Member
  attributes : List Attribute
  deriving DecidableEq

/-- Where an attribute stands in a class. -/
inductive Location where
  /-- On the class itself. -/
  | onClass
  | onField (position : Nat)
  | onMethod (position : Nat)
  /-- In the body of a method. -/
  | inBody (position : Nat)
  deriving DecidableEq

/-- The location as messages show it. -/
def Location.describe : Location → String
  | onClass => "Class"
  | onField position => "Field(" ++ toString position ++ ")"
  | onMethod position => "Method(" ++ toString position ++ ")"
  | inBody position => "Code(" ++ toString position ++ ")"

namespace Member

/-- The name of the member. -/
def nameIn (pool : Pool) (m : Member) : Except LookupError String :=
  pool.utf8 m.name

/-- The descriptor of the member. -/
def descriptorIn (pool : Pool) (m : Member) : Except LookupError String :=
  pool.utf8 m.descriptor

end Member

namespace ClassFile

/-- The name of the class. -/
def name (c : ClassFile) : Except LookupError String :=
  c.pool.className c.thisClass

/-- The name of the class it extends, if it extends one. -/
def superName (c : ClassFile) : Except LookupError (Option String) :=
  if c.superClass = 0 then .ok none else some <$> c.pool.className c.superClass

/-- Equality of classes as values: pools are compared as values, all else as it is. -/
def numericEq (c d : ClassFile) : Bool :=
  c.pool.numericEq d.pool && c == { d with pool := c.pool }

/-! ## The attributes at a location -/

/-- Changes the attributes of the first body among some. -/
def updateFirstBody (f : List Attribute → List Attribute) : List Attribute → List Attribute
  | [] => []
  | ⟨name, .code body⟩ :: rest =>
    ⟨name, .code { body with attributes := f body.attributes }⟩ :: rest
  | a :: rest => a :: updateFirstBody f rest

/-- The attributes at a location.  In a body means in the first one the method has. -/
def attributesAt? (c : ClassFile) : Location → Option (List Attribute)
  | .onClass => some c.attributes
  | .onField position => c.fields[position]?.map Member.attributes
  | .onMethod position => c.methods[position]?.map Member.attributes
  | .inBody position =>
    c.methods[position]?.bind fun m =>
      (m.attributes.findSome? fun a => a.payload.body?).map CodeBody.attributes

/-- Changes the attributes at a location. -/
def updateAttributes (f : List Attribute → List Attribute) (c : ClassFile) :
    Location → ClassFile
  | .onClass => { c with attributes := f c.attributes }
  | .onField position =>
    { c with fields := c.fields.modify position fun m => { m with attributes := f m.attributes } }
  | .onMethod position =>
    { c with
      methods := c.methods.modify position fun m => { m with attributes := f m.attributes } }
  | .inBody position =>
    { c with
      methods := c.methods.modify position fun m =>
        { m with attributes := updateFirstBody f m.attributes } }

end ClassFile

end JvmClass
