import JvmClass.Annotation.Basic
import JvmClass.Annotation.Length
import JvmClass.Annotation.Read
import JvmClass.Annotation.Shape
import JvmClass.Annotation.Target
import JvmClass.Annotation.Write
import JvmClass.Attribute.Basic
import JvmClass.Attribute.Length
import JvmClass.Attribute.Name
import JvmClass.Attribute.Read
import JvmClass.Attribute.References
import JvmClass.Attribute.Validation
import JvmClass.Attribute.Write
import JvmClass.Bytes.Decoder
import JvmClass.Bytes.Word
import JvmClass.Bytes.Writer
import JvmClass.ClassFile.Basic
import JvmClass.ClassFile.Read
import JvmClass.ClassFile.Validation
import JvmClass.ClassFile.Write
import JvmClass.Decimal.Binary
import JvmClass.Decimal.Shortest
import JvmClass.Decimal.Text
import JvmClass.Error
import JvmClass.Flags
import JvmClass.Notice
import JvmClass.Pool.Basic
import JvmClass.Pool.Closure
import JvmClass.Pool.Entry
import JvmClass.Pool.EntryText
import JvmClass.Pool.Read
import JvmClass.Pool.Write
import JvmClass.Reference
import JvmClass.Report
import JvmClass.Tag
import JvmClass.Text.Escaped
import JvmClass.Text.ModifiedUtf8
import JvmClass.Text.Quoted
import JvmClass.Main
import JvmClass.Proofs.Bytes.Emission
import JvmClass.Proofs.Bytes.Reading
import JvmClass.Proofs.Text.Payload
import JvmClass.Proofs.Text.Grammar
import JvmClass.Proofs.Annotation.Emission
import JvmClass.Proofs.Annotation.Length
import JvmClass.Proofs.Annotation.Fits
import JvmClass.Proofs.Annotation.Reading
import JvmClass.Proofs.Attribute.Emission
import JvmClass.Proofs.Attribute.Length
import JvmClass.Proofs.Attribute.Canonical
import JvmClass.Proofs.Attribute.Reading
import JvmClass.Proofs.Pool.Constants
import JvmClass.Proofs.Pool.Texts
import JvmClass.Proofs.Pool.Layout
import JvmClass.Proofs.Pool.Listing
import JvmClass.Proofs.ClassFile.Layout
import JvmClass.Proofs.ClassFile.RoundTrip
import JvmClass.Proofs.Attribute.Rules
import JvmClass.Proofs.ClassFile.Containment
import JvmClass.Proofs.Bytes.Definite
import JvmClass.Proofs.ClassFile.Delimited
import JvmClass.Proofs.Attribute.Counting
import JvmClass.Proofs.Attribute.Clipping
import JvmClass.Proofs.Bytes.Refusal
import JvmClass.Proofs.ClassFile.NormalForm
import JvmClass.Proofs.Pool.Growth
import JvmClass.Proofs.Attribute.Dependence
import JvmClass.Proofs.ClassFile.Findings
import JvmClass.Proofs.Attribute.Growth
import JvmClass.Proofs.ClassFile.Growth
import JvmClass.Proofs.Pool.Declared
import JvmClass.Proofs.Pool.Numbers
import JvmClass.Proofs.Pool.Reachability
import JvmClass.Proofs.Attribute.Enclosed
import JvmClass.Proofs.Pool.Rebuilding
import JvmClass.Proofs.Attribute.RoundTrip
import JvmClass.Proofs.Bytes.Outcome
import JvmClass.Proofs.ClassFile.Truncation
import JvmClass.Proofs.Annotation.Parts
import JvmClass.Proofs.Attribute.Parts
import JvmClass.Proofs.Bytes.Parts
import JvmClass.Proofs.ClassFile.Parts
import JvmClass.Proofs.ClassFile.Kinds
import JvmClass.Proofs.Attribute.Notices
import JvmClass.Proofs.Attribute.Accesses
import JvmClass.Proofs.ClassFile.Notices
