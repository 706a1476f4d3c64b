import JvmClass.Proofs.Bytes.Outcome
import JvmClass.Proofs.ClassFile.Layout

/-!
# JvmClass.Proofs.ClassFile.Truncation — writing to an output that becomes full.

Classes, pools, lists of attributes and single attributes can be written to one output, in any
order.  The output may become full anywhere, be it between the two bytes of a word or in front of a
count that does not fit.  What it has received is then the front of what an output without bound
would have received (`Operation.outcome_truncated`).
-/

namespace JvmClass

open Writer

/-- What can be written to an output at a time. -/
inductive Operation where
  | ofClass (c : ClassFile)
  | ofPool (p : Pool)
  | ofAttributes (table : List Attribute)
  | ofAttribute (a : Attribute)

namespace Operation

/-- Writes it. -/
def write : Operation → Writer Unit
  | ofClass c => c.write
  | ofPool p => p.write
  | ofAttributes table => Attribute.writeTable table
  | ofAttribute a => a.write

instance plain (op : Operation) : Plain op.write := by
  cases op <;> unfold write <;> infer_instance

/-- An output that takes so many bytes has the same outcome as one without bound if that leaves no
more bytes; otherwise it receives the first of them, and the failure is that it is full.  This holds
for every operation, and for every run of operations on one output, where an output without bound
receives what the operations leave one by one, up to the first that fails. -/
theorem outcome_truncated (limit : Nat) :
    (∀ op : Operation, op.write.outcome (.bounded limit) =
      (op.write.outcome .unbounded).truncated limit) ∧
    ∀ ops : List Operation,
      (ops.forM write).outcome .unbounded =
        .joined (ops.map fun op => op.write.outcome .unbounded) ∧
      (ops.forM write).outcome (.bounded limit) =
        (Outcome.joined (ops.map fun op => op.write.outcome .unbounded)).truncated limit := by
  refine ⟨fun op => Writer.outcome_bounded op.write limit, fun ops => ⟨outcome_forM write ops, ?_⟩⟩
  rw [Writer.outcome_bounded, outcome_forM]

/-- The output becomes full between the two bytes of the second count. -/
example : ([ofPool .empty, ofAttributes [], ofAttribute ⟨1, .raw []⟩].forM write).outcome
    (.bounded 3) = ⟨.error .outputFull, [0x00, 0x01, 0x00]⟩ := rfl

end Operation

end JvmClass
