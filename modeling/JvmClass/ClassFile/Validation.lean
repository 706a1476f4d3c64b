import JvmClass.Notice

/-!
# JvmClass.ClassFile.Validation — whether the attributes of a class fit its pool.

`visits` lists the attributes in the order in which they are checked: those of the class, then those
of the fields, then those of the methods, where the attributes in a body follow the one that carries
it.  Deeper bodies are not entered.  `validate` stops at the first attribute that does not fit;
`invalidAttributes` collects them all and leaves a notice for each.
-/

namespace JvmClass

/-- An attribute that does not fit the pool: where it stands and what is wrong with it. -/
structure Finding where
  location : Location
  violation : Violation
  deriving DecidableEq

namespace ClassFile

/-- An attribute of a method, and behind it the attributes in the body if it carries one. -/
def visitsOfMethod (position : Nat) (a : Attribute) : List (Location × Attribute) :=
  (.onMethod position, a) ::
    match a.payload with
    | .code body => body.attributes.map fun n => (.inBody position, n)
    | _ => []

/-- The attributes to be checked, each with its location. -/
def visits (c : ClassFile) : List (Location × Attribute) :=
  (c.attributes.map fun a => (.onClass, a)) ++
    (c.fields.zipIdx.flatMap fun m => m.1.attributes.map fun a => (.onField m.2, a)) ++
    c.methods.zipIdx.flatMap fun m => m.1.attributes.flatMap (visitsOfMethod m.2)

/-- All attributes fit the pool, or the first violation. -/
def validate (c : ClassFile) : Noted (Except Violation Unit) :=
  ⟨c.visits.forM fun v => v.2.validate c.pool, []⟩

/-- What is wrong with an attribute, if anything is. -/
def finding? (pool : Pool) (location : Location) (a : Attribute) : Option Finding :=
  match a.validate pool with
  | .ok () => none
  | .error violation => some ⟨location, violation⟩

/-- All attributes that do not fit the pool. -/
def invalidAttributes (c : ClassFile) : Noted (List Finding) :=
  let findings := c.visits.filterMap fun v => finding? c.pool v.1 v.2
  ⟨findings, findings.map fun f => .invalidAt f.location f.violation⟩

end ClassFile

end JvmClass
