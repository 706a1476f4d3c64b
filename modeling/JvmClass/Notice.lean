import JvmClass.Attribute.Validation
import JvmClass.ClassFile.Basic

/-!
# JvmClass.Notice — what is reported besides a result.

Reading keeps the bytes of a payload that it cannot make sense of, and validation answers yes or no.
Both say why in a notice.  `Noted` is a result with the notices that arose on the way to it.
-/

namespace JvmClass

/-- A remark on something that did not stop the work. -/
inductive Notice where
  /-- A payload was kept raw since bytes were left behind its end. -/
  | trailingBytes (name : AttributeName)
  /-- A payload was kept raw since it could not be read. -/
  | malformed (name : AttributeName) (cause : ReadError)
  /-- An attribute does not fit its pool. -/
  | invalid (violation : Violation)
  /-- The same, with the place of the attribute. -/
  | invalidAt (location : Location) (violation : Violation)
  deriving DecidableEq

/-- The wording of a notice. -/
def Notice.message : Notice → String
  | trailingBytes name => "'" ++ name.text ++ "' attribute has trailing bytes, keeping it raw"
  | malformed name cause =>
    "Malformed '" ++ name.text ++ "' attribute, keeping it raw: " ++ cause.message
  | invalid violation => violation.message
  | invalidAt location violation => location.describe ++ ": " ++ violation.message

/-- A result and the notices that go with it, in the order in which they arose. -/
structure Noted (α : Type) where
  result : α
  notices : List Notice

/-- Whether an attribute fits the pool.  The notice says why not. -/
def Attribute.isValid (pool : Pool) (a : Attribute) : Noted Bool :=
  match a.validate pool with
  | .ok () => ⟨true, []⟩
  | .error violation => ⟨false, [.invalid violation]⟩

end JvmClass
