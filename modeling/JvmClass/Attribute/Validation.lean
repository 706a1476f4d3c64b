import JvmClass.Attribute.References

/-!
# JvmClass.Attribute.Validation — whether an attribute fits its pool.

An attribute has to be named by a string constant.  If its name is one with reference rules and its
payload is not raw, then the payload has to be of the kind that goes with the name, and each of its
references has to lead to a slot of an accepted kind.  The first violation in this order is the one
reported.
-/

namespace JvmClass

/-- What is wrong with an attribute. -/
inductive Violation where
  /-- No slot has the number of the name. -/
  | nameOutOfBounds (index : UInt16) (size : Nat)
  /-- The name is no string constant. -/
  | nameNotUtf8 (index : UInt16)
  /-- The payload does not go with the name. -/
  | payloadMismatch (name : AttributeName) (kind : PayloadKind)
  /-- A reference leads out of the pool. -/
  | outOfBounds (name : AttributeName) (index : UInt16) (size : Nat)
  /-- A reference leads to a slot of another kind, or to one that holds nothing. -/
  | wrongTag (name : AttributeName) (index : UInt16) (expected : Expectation) (found : Option Tag)
  deriving DecidableEq

/-- The wording of a violation. -/
def Violation.message : Violation → String
  | nameOutOfBounds index size =>
    "Attribute name index " ++ toString index.toNat ++ " out of CP bounds (size " ++
      toString size ++ ")"
  | nameNotUtf8 index =>
    "Attribute name index " ++ toString index.toNat ++ " does not point to a Utf8 entry"
  | payloadMismatch name kind =>
    "Invalid '" ++ name.text ++ "' attribute, carries a " ++ kind.name ++ " payload"
  | outOfBounds name index size =>
    "Invalid '" ++ name.text ++ "' attribute, contains CP reference " ++ toString index.toNat ++
      " out of CP bounds (size " ++ toString size ++ ")"
  | wrongTag name index expected found =>
    "Invalid '" ++ name.text ++ "' attribute, CP reference " ++ toString index.toNat ++
      " expected " ++ expected.message ++ ", found " ++
      (match found with
        | some tag => tag.name
        | none => "an unusable slot")

/-- A reference held by an attribute of the given name has to be absent, where it may be, or lead
to a slot of an accepted kind. -/
def Reference.validate (pool : Pool) (name : AttributeName) (r : Reference) :
    Except Violation Unit :=
  if r.index = 0 ∧ (name.allowsZero || r.optional) then .ok ()
  else
    match pool.get? r.index with
    | none => .error (.outOfBounds name r.index pool.size)
    | some entry =>
      if entry.tag?.any r.expectation.accepts then .ok ()
      else .error (.wrongTag name r.index r.expectation entry.tag?)

/-- The payload of an attribute of the given name has to go with it and hold valid references. -/
def Payload.validate (pool : Pool) (name : AttributeName) (p : Payload) : Except Violation Unit :=
  if p.belongsTo name then p.references.forM (Reference.validate pool name)
  else .error (.payloadMismatch name p.kind)

/-- The attribute fits the pool, or the first violation. -/
def Attribute.validate (pool : Pool) (a : Attribute) : Except Violation Unit :=
  match pool.get? a.name with
  | none => .error (.nameOutOfBounds a.name pool.size)
  | some (.utf8 text) =>
    match AttributeName.ofString? text with
    | some name =>
      if name.hasReferenceRules && !a.payload.isRaw then a.payload.validate pool name else .ok ()
    | none => .ok ()
  | some _ => .error (.nameNotUtf8 a.name)

end JvmClass
