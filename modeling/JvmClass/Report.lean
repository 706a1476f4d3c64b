import JvmClass.ClassFile.Read
import JvmClass.ClassFile.Validation

/-!
# JvmClass.Report — the answer of the command line.

The command takes the path of one class file and reports every attribute that does not fit the pool
of the class.
-/

namespace JvmClass

/-- What the command prints, and the status with which it ends. -/
structure Report where
  output : String
  errors : String
  status : UInt8
  deriving DecidableEq

/-- The owner of an attribute, as the report names it. -/
def Location.owner : Location → String
  | onClass => "class"
  | onField position => "field #" ++ toString position
  | onMethod position => "method #" ++ toString position
  | inBody position => "code of method #" ++ toString position

namespace Report

/-- The report when no path is given. -/
def usage : Report := ⟨"", "usage: validate <path/to/Class.class>\n", 2⟩

/-- The report when the file at the path cannot be read, for the given reason. -/
def unreadable (path reason : String) : Report :=
  ⟨"", path ++ ": " ++ reason ++ "\n", 1⟩

/-- The line for an attribute that does not fit. -/
def line (name : String) (f : Finding) : String :=
  name ++ " (" ++ f.location.owner ++ "): " ++ f.violation.message ++ "\n"

/-- The report on a class. -/
def ofClass (c : ClassFile) : Report :=
  let name := c.name.toOption.getD "<unnamed>"
  let findings := c.invalidAttributes.result
  if findings.isEmpty then ⟨name ++ ": all attributes valid\n", "", 0⟩
  else ⟨String.join (findings.map (line name)), "", 1⟩

/-- The report on the file at the path, which holds the given bytes. -/
def ofFile (path : String) (contents : Bytes) : Report :=
  match (ClassFile.parse contents).result with
  | .ok c => ofClass c
  | .error e => unreadable path e.message

end Report

end JvmClass
