import JvmClass.Proofs.Attribute.Reading

/-!
# JvmClass.Proofs.Attribute.RoundTrip — an attribute that was read is written as it was.

Reading can go wrong in a payload in many ways, and then keeps bytes.  None of this can be told from
what is written: the bytes that were taken for an attribute, in whatever pool and with however many
levels left, are the bytes that are written for it.  So the length that is stored in front of a
payload is the one that is computed for it.  Nothing is asked of the bytes, since reading takes no
attribute but a canonical one that fits its length field.
-/

namespace JvmClass

open Writer

/-- An attribute that was read is written, in exactly the bytes that were taken for it; and so is a
body that was read on its own. -/
theorem Attribute.emits_of_read (pool : Pool) (levels : Nat) (s s' : Reading) :
    (∀ a, Attribute.read pool levels s = .ok a s' →
      ∃ used, s.rest = used ++ s'.rest ∧ Emits a.write used) ∧
    (∀ b, CodeBody.read pool levels s = .ok b s' →
      ∃ used, s.rest = used ++ s'.rest ∧ Emits b.write used) := by
  refine ⟨fun a run => ?_, fun b run => ?_⟩
  · obtain ⟨used, ⟨-, -, written⟩, split⟩ := (Attribute.reads pool levels).sound run
    exact ⟨used, split, written⟩
  · obtain ⟨used, ⟨-, written⟩, split⟩ := (CodeBody.reads pool levels).sound run
    exact ⟨used, split, written⟩

/-- A body that carries the same attribute twice, the second time with a byte too many. -/
def withTrailingByte : CodeBody :=
  ⟨0, 1, [0xB1], [], [⟨2, .constantValue 7⟩, ⟨2, .raw [0x00, 0x07, 0xFF]⟩]⟩

/-- The bytes of that body. -/
def withTrailingByteBytes : Bytes :=
  [0x00, 0x00, 0x00, 0x01, 0x00, 0x00, 0x00, 0x01, 0xB1, 0x00, 0x00, 0x00, 0x02, 0x00, 0x02, 0x00,
    0x00, 0x00, 0x02, 0x00, 0x07, 0x00, 0x02, 0x00, 0x00, 0x00, 0x03, 0x00, 0x07, 0xFF]

theorem Attribute.emits_of_read_withTrailingByte :
    Attribute.read ⟨#[.utf8 "Code", .utf8 "ConstantValue"]⟩ 1
        ⟨[0x00, 0x01, 0x00, 0x00, 0x00, 0x1E] ++ withTrailingByteBytes ++ [0xAA], #[]⟩ =
      .ok ⟨1, .code withTrailingByte⟩ ⟨[0xAA], #[.trailingBytes .constantValue]⟩ ∧
    Emits (Attribute.write ⟨1, .code withTrailingByte⟩)
      ([0x00, 0x01, 0x00, 0x00, 0x00, 0x1E] ++ withTrailingByteBytes) ∧
    CodeBody.read ⟨#[.utf8 "Code", .utf8 "ConstantValue"]⟩ 0
        ⟨withTrailingByteBytes ++ [0xAA], #[]⟩ =
      .ok withTrailingByte ⟨[0xAA], #[.trailingBytes .constantValue]⟩ ∧
    Emits withTrailingByte.write withTrailingByteBytes := by
  have enclosed : Attribute.read ⟨#[.utf8 "Code", .utf8 "ConstantValue"]⟩ 1
      ⟨[0x00, 0x01, 0x00, 0x00, 0x00, 0x1E] ++ withTrailingByteBytes ++ [0xAA], #[]⟩ =
      .ok ⟨1, .code withTrailingByte⟩ ⟨[0xAA], #[.trailingBytes .constantValue]⟩ := rfl
  have alone : CodeBody.read ⟨#[.utf8 "Code", .utf8 "ConstantValue"]⟩ 0
      ⟨withTrailingByteBytes ++ [0xAA], #[]⟩ =
      .ok withTrailingByte ⟨[0xAA], #[.trailingBytes .constantValue]⟩ := rfl
  obtain ⟨used, split, written⟩ := (emits_of_read _ 1 _ _).1 _ enclosed
  obtain ⟨used', split', written'⟩ := (emits_of_read _ 0 _ _).2 _ alone
  rw [← List.append_cancel_right split] at written
  rw [← List.append_cancel_right split'] at written'
  exact ⟨enclosed, written, alone, written'⟩

end JvmClass
