import JvmClass.Proofs.Attribute.Clipping

/-!
# JvmClass.Proofs.Attribute.Counting — the stored length is the number of bytes behind it.

A reader passes over an attribute by its length field, so a length that is off misplaces all that
follows.  The length is right wherever the exact size of the payload fits the field.  This takes no
more than that: the tree may be one that cannot be read again, its names may announce other
payloads, and the same holds for each attribute in a body, and in the bodies within it.

No step of a sum is lost on the way either.  The sums that make up a size only grow, so the size of
the outermost payload bounds each of them; `Arithmetic.checked` refuses a sum just where a step is
too large, and still comes to a length.
-/

namespace JvmClass

open Writer

/-- The first attribute stands in the body that the second carries, at any depth. -/
inductive Attribute.Inside : Attribute → Attribute → Prop
  | direct {b : Attribute} {name : UInt16} {body : CodeBody} :
      b ∈ body.attributes → Inside b ⟨name, .code body⟩
  | deeper {b c : Attribute} {name : UInt16} {body : CodeBody} :
      c ∈ body.attributes → Inside b c → Inside b ⟨name, .code body⟩

theorem Payload.inside_of_ne_code {p : Payload} (flat : p.kind ≠ .code) : p.inside = [] := by
  cases p with
  | code body => exact absurd rfl flat
  | _ => rfl

/-- What stands in an attribute stands in its body, or in what does. -/
theorem Attribute.inside_iff {a b : Attribute} :
    b.Inside a ↔ ∃ c ∈ a.payload.inside, b = c ∨ b.Inside c := by
  constructor
  · intro within
    cases within with
    | direct mem => exact ⟨b, mem, .inl rfl⟩
    | deeper mem within => exact ⟨_, mem, .inr within⟩
  · rintro ⟨c, mem, here⟩
    obtain ⟨name, payload⟩ := a
    cases payload with
    | code body =>
        rcases here with rfl | within
        · exact .direct mem
        · exact .deeper mem within
    | _ => cases mem

theorem Attribute.Inside.trans {a b c : Attribute} (hab : a.Inside b) (hbc : b.Inside c) :
    a.Inside c := by
  induction hbc with
  | direct mem => exact .deeper mem hab
  | deeper mem _ ih => exact .deeper mem ih

/-- What holds of an attribute whenever it holds of those in its body holds of all attributes. -/
theorem Attribute.induction_inside {P : Attribute → Prop}
    (step : ∀ a, (∀ b ∈ a.payload.inside, P b) → P a) (a : Attribute) : P a := by
  induction depth : a.payload.depth using Nat.strongRecOn generalizing a with
  | ind n ih =>
      refine step a fun b mem => ih b.payload.depth ?_ b rfl
      obtain ⟨name, payload⟩ := a
      cases payload with
      | code body =>
          rw [← depth]
          exact Nat.lt_succ_of_le (CodeBody.depth_le_iff.mp (Nat.le_refl _) b mem)
      | _ => cases mem

/-- The bytes of the attribute are laid out by its length, which is the same however it is summed
up. -/
structure Attribute.Counted (a : Attribute) (bs : Bytes) : Prop where
  /-- The name, the length, and so many bytes of the payload. -/
  layout : ∃ body, bs = .ofWord16 a.name ++ (.ofWord32 a.payload.length ++ body) ∧
    Emits a.payload.write body ∧ body.length = a.payload.length.toNat
  /-- No step of the sum is too large for a word. -/
  unwrapped : a.payload.lengthIn .checked = some a.payload.length
  /-- The length that is checked is the same. -/
  agreed : a.payload.checkedLength = .ok a.payload.length

/-! ## Sizes of what stands inside -/

theorem Attribute.size_le_of_mem {a : Attribute} {as : List Attribute} (h : a ∈ as) :
    a.payload.size ≤ sizeAll as := by
  induction as with
  | nil => cases h
  | cons b as ih =>
      obtain ⟨name, payload⟩ := b
      show _ ≤ 6 + payload.size + sizeAll as
      rcases List.mem_cons.mp h with rfl | h
      · show payload.size ≤ _
        omega
      · have inner := ih h
        omega

theorem CodeBody.size_le_of_mem {a : Attribute} {b : CodeBody} (h : a ∈ b.attributes) :
    a.payload.size ≤ b.size := by
  obtain ⟨maxStack, maxLocals, code, handlers, attributes⟩ := b
  have inner : a.payload.size ≤ Attribute.sizeAll attributes := Attribute.size_le_of_mem h
  show _ ≤ 10 + code.length + 8 * handlers.length + (2 + Attribute.sizeAll attributes)
  omega

/-! ## Counting -/

theorem Payload.lengthIn_checked {p : Payload} (small : p.size < 0x100000000) :
    p.lengthIn .checked = some p.length := by
  rw [p.lengthIn_eq Arithmetic.faithful_checked, ← p.lengthIn_wrapping,
    p.lengthIn_eq Arithmetic.faithful_wrapping]
  exact Arithmetic.word?_of_lt small

theorem Attribute.counted_of_small {a : Attribute} {bs : Bytes}
    (small : a.payload.size < 0x100000000) (written : Emits a.write bs) : a.Counted bs := by
  have agreed := Payload.checkedLength_of_small small
  obtain ⟨length, body, fits, emitted, rfl⟩ := emits_write_iff.mp written
  obtain rfl : a.payload.length = length := by
    rw [agreed] at fits
    exact Except.ok.inj fits
  refine ⟨⟨body, rfl, emitted, ?_⟩, Payload.lengthIn_checked small, agreed⟩
  rw [Payload.toNat_length small, Payload.size_of_emits emitted]

/-- What stands in a body is written within the attribute that carries it. -/
theorem Attribute.exists_infix_of_mem {b : Attribute} {name : UInt16} {body : CodeBody}
    {bs : Bytes} (written : Emits (Attribute.write ⟨name, .code body⟩) bs)
    (h : b ∈ body.attributes) : ∃ x, Emits b.write x ∧ x <:+: bs := by
  obtain ⟨length, inner, -, emitted, rfl⟩ := emits_write_iff.mp written
  obtain ⟨x, hx, within⟩ := CodeBody.exists_infix_of_mem emitted h
  refine ⟨x, hx, within.trans ?_⟩
  rw [← List.append_assoc]
  exact (List.suffix_append _ inner).isInfix

/-- An attribute whose payload is small enough for the length field is laid out by its length, and
so is every attribute in it. -/
theorem Attribute.counted_of_emits {a : Attribute} {bs : Bytes}
    (small : a.payload.size < 0x100000000) (written : Emits a.write bs) :
    a.Counted bs ∧
      ∀ b : Attribute, b.Inside a → ∃ x, x <:+: bs ∧ Emits b.write x ∧ b.Counted x := by
  refine ⟨counted_of_small small written, fun b inside => ?_⟩
  -- going down one body keeps the payload small and the attribute written in one piece
  induction inside generalizing bs with
  | direct mem =>
      obtain ⟨x, hx, within⟩ := exists_infix_of_mem written mem
      have smaller := CodeBody.size_le_of_mem mem
      exact ⟨x, within, hx, counted_of_small (Nat.lt_of_le_of_lt smaller small) hx⟩
  | deeper mem _ ih =>
      obtain ⟨x, hx, within⟩ := exists_infix_of_mem written mem
      have smaller := CodeBody.size_le_of_mem mem
      obtain ⟨y, within', hy, counted⟩ := ih (Nat.lt_of_le_of_lt smaller small) hx
      exact ⟨y, within'.trans within, hy, counted⟩

/-- An annotation on a local variable, whose target type stands for a type parameter. -/
def straySlot : Attribute :=
  ⟨2, .typeAnnotations [⟨0x00, .localVariable [⟨0, 1, 0⟩], [], ⟨3, [⟨4, .array [.string 5]⟩]⟩⟩]⟩

/-- The bytes of that annotation. -/
def straySlotBytes : Bytes :=
  [0x00, 0x02, 0x00, 0x00, 0x00, 0x18, 0x00, 0x01, 0x00, 0x00, 0x01, 0x00, 0x00, 0x00, 0x01, 0x00,
    0x00, 0x00, 0x00, 0x03, 0x00, 0x01, 0x00, 0x04, 0x5B, 0x00, 0x01, 0x73, 0x00, 0x05]

theorem Attribute.counted_of_emits_straySlot :
    (Payload.code ⟨0, 1, [0xB1], [], [straySlot]⟩).size < 0x100000000 ∧
      ∃ bs, Emits (Attribute.write ⟨1, .code ⟨0, 1, [0xB1], [], [straySlot]⟩⟩) bs ∧
        Attribute.Counted ⟨1, .code ⟨0, 1, [0xB1], [], [straySlot]⟩⟩ bs ∧
        ∀ b : Attribute, b.Inside ⟨1, .code ⟨0, 1, [0xB1], [], [straySlot]⟩⟩ →
          ∃ x, x <:+: bs ∧ Emits b.write x ∧ b.Counted x := by
  have small : (Payload.code ⟨0, 1, [0xB1], [], [straySlot]⟩).size < 0x100000000 := by decide
  have inner : Series (fun a => Emits (Attribute.write a)) [straySlot] straySlotBytes :=
    .cons (x := straySlotBytes) rfl .nil
  have body : Emits (Payload.code ⟨0, 1, [0xB1], [], [straySlot]⟩).write _ :=
    CodeBody.emits_write_iff.mpr ⟨_, _, by decide, ⟨by decide, [], .nil, rfl⟩,
      ⟨by decide, straySlotBytes, inner, rfl⟩, rfl⟩
  have written := (emits_write_iff (a := ⟨1, _⟩)).mpr ⟨0x2B, _, rfl, body, rfl⟩
  exact ⟨small, _, written, counted_of_emits small written⟩

end JvmClass
