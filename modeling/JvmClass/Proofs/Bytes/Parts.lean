import JvmClass.Proofs.Bytes.Outcome
import JvmClass.Proofs.Bytes.Refusal

/-!
# JvmClass.Proofs.Bytes.Parts — writers as lists of what they write.

What a writer hands over is made of bytes that always fit and of counts that may be too large for
their fields.  A list of such parts tells which, and in what order.  A writer that equals
`Part.writeAll parts` is flattened into its parts, whatever loops and recursion it goes through, and
its outcome can be read off the list: if all parts fit then their bytes are written, and otherwise
the first that does not is reported when the bytes in front of it have been written.
-/

namespace JvmClass

open Writer

/-- A part of what a writer hands over. -/
inductive Part where
  /-- Bytes, which always fit. -/
  | fixed (bytes : Bytes)
  /-- A count in a field of one byte. -/
  | count8 (n : Nat)
  /-- A count in a field of two bytes. -/
  | count16 (n : Nat)

namespace Part

/-- The count that the field cannot hold, if the part is such a count. -/
def refused? : Part → Option Nat
  | fixed _ => none
  | count8 n => if n < 0x100 then none else some n
  | count16 n => if n < 0x10000 then none else some n

/-- The part is not a count that its field cannot hold. -/
def Fits (p : Part) : Prop :=
  p.refused? = none

/-- What is in the output once the part has been written. -/
def bytes : Part → Bytes
  | fixed bs => bs
  | count8 n => [.ofNat n]
  | count16 n => .ofWord16 (.ofNat n)

/-- Writes a part. -/
def write : Part → Writer Unit
  | fixed bs => Writer.bytes bs
  | count8 n => Writer.count8 n
  | count16 n => Writer.count16 n

/-- Writes one part after the other. -/
def writeAll (parts : List Part) : Writer Unit :=
  parts.forM write

/-- All parts fit. -/
def AllFit (parts : List Part) : Prop :=
  ∀ p ∈ parts, p.Fits

/-- A count in two bytes, and the parts of so many elements. -/
def table {α : Type} (parts : α → List Part) (as : List α) : List Part :=
  count16 as.length :: as.flatMap parts

instance plain (p : Part) : Plain p.write := by
  cases p <;> unfold write <;> infer_instance

instance plain_writeAll (parts : List Part) : Plain (writeAll parts) := by
  unfold writeAll
  infer_instance

/-! ## Fitting -/

@[simp] theorem fits_fixed (bs : Bytes) : (fixed bs).Fits := rfl

@[simp] theorem fits_count8_iff {n : Nat} : (count8 n).Fits ↔ n < 0x100 := by
  simp [Fits, refused?]

@[simp] theorem fits_count16_iff {n : Nat} : (count16 n).Fits ↔ n < 0x10000 := by
  simp [Fits, refused?]

@[simp] theorem allFit_nil : AllFit [] := List.forall_mem_nil Fits

@[simp] theorem allFit_cons_iff {p : Part} {parts : List Part} :
    AllFit (p :: parts) ↔ p.Fits ∧ AllFit parts := List.forall_mem_cons

@[simp] theorem allFit_append_iff {front back : List Part} :
    AllFit (front ++ back) ↔ AllFit front ∧ AllFit back := List.forall_mem_append

theorem allFit_flatMap_iff {α : Type} {parts : α → List Part} {as : List α} :
    AllFit (as.flatMap parts) ↔ ∀ a ∈ as, AllFit (parts a) := by
  induction as with
  | nil => simp
  | cons a as ih => rw [List.flatMap_cons, allFit_append_iff, ih, List.forall_mem_cons]

theorem allFit_table_iff {α : Type} {parts : α → List Part} {as : List α} :
    AllFit (table parts as) ↔ as.length < 0x10000 ∧ ∀ a ∈ as, AllFit (parts a) := by
  rw [table, allFit_cons_iff, fits_count16_iff, allFit_flatMap_iff]

/-- If not all parts fit then there is a first one that does not. -/
theorem exists_first_refused {parts : List Part} (large : ¬ AllFit parts) :
    ∃ front p n back, parts = front ++ p :: back ∧ AllFit front ∧ p.refused? = some n := by
  induction parts with
  | nil => exact absurd allFit_nil large
  | cons p parts ih =>
      cases found : p.refused? with
      | some n => exact ⟨[], p, n, parts, rfl, allFit_nil, found⟩
      | none =>
          have behind : ¬ AllFit parts := fun fit => large (allFit_cons_iff.mpr ⟨found, fit⟩)
          obtain ⟨front, q, n, back, rfl, fit, refused⟩ := ih behind
          exact ⟨p :: front, q, n, back, rfl, allFit_cons_iff.mpr ⟨found, fit⟩, refused⟩

/-! ## Writing

A list of parts ends in a step that does nothing, and the writers of records do not.  So these are
flattened by `writeAll_cons`, `writeAll_nil` and `bind_pure_unit`. -/

theorem writeAll_nil : writeAll [] = pure () := rfl

theorem writeAll_cons (p : Part) (parts : List Part) :
    writeAll (p :: parts) = (do p.write; writeAll parts) := rfl

theorem writeAll_append (front back : List Part) :
    writeAll (front ++ back) = (do writeAll front; writeAll back) :=
  List.forM_append

/-- A loop over elements writes the parts of all of them. -/
theorem writeAll_flatMap {α : Type} {parts : α → List Part} {f : α → Writer Unit} {as : List α}
    (each : ∀ a ∈ as, f a = writeAll (parts a)) : as.forM f = writeAll (as.flatMap parts) := by
  induction as with
  | nil => rfl
  | cons a as ih =>
      have rest := ih fun b hb => each b (List.mem_cons_of_mem a hb)
      show (do f a; as.forM f) = _
      rw [each a List.mem_cons_self, rest, List.flatMap_cons, writeAll_append]

theorem writeAll_table {α : Type} {parts : α → List Part} {f : α → Writer Unit} {as : List α}
    (each : ∀ a ∈ as, f a = writeAll (parts a)) :
    (do Writer.count16 as.length; as.forM f) = writeAll (table parts as) := by
  rw [writeAll_flatMap each]
  rfl

/-! ## Outcomes -/

theorem outcome_of_fits {p : Part} (fits : p.Fits) :
    p.write.outcome .unbounded = ⟨.ok (), p.bytes⟩ := by
  cases p with
  | fixed bs => exact outcome_bytes bs
  | count8 n =>
      rw [write, Writer.count8, if_pos (fits_count8_iff.mp fits)]
      exact outcome_bytes _
  | count16 n =>
      rw [write, Writer.count16, if_pos (fits_count16_iff.mp fits)]
      exact outcome_bytes _

theorem outcome_of_refused {p : Part} {n : Nat} (refused : p.refused? = some n) :
    p.write.outcome .unbounded = ⟨.error (.overflow ⟨n⟩), []⟩ := by
  cases p with
  | fixed bs => cases refused
  | count8 m =>
      obtain ⟨large, rfl⟩ : ¬ m < 0x100 ∧ m = n := by simpa [refused?] using refused
      rw [write, Writer.count8, if_neg large]
      rfl
  | count16 m =>
      obtain ⟨large, rfl⟩ : ¬ m < 0x10000 ∧ m = n := by simpa [refused?] using refused
      rw [write, Writer.count16, if_neg large]
      rfl

/-- Parts that fit are written in full. -/
theorem outcome_writeAll_of_allFit {parts : List Part} (fit : AllFit parts) :
    (writeAll parts).outcome .unbounded = ⟨.ok (), parts.flatMap bytes⟩ := by
  induction parts with
  | nil => exact outcome_pure
  | cons p parts ih =>
      obtain ⟨first, rest⟩ := allFit_cons_iff.mp fit
      rw [writeAll_cons, outcome_bind, outcome_of_fits first, ih rest]
      rfl

/-- Of parts that do not all fit those in front of the first that does not are written, and its
count is reported. -/
theorem outcome_writeAll_of_refused {front back : List Part} {p : Part} {n : Nat}
    (fit : AllFit front) (refused : p.refused? = some n) :
    (writeAll (front ++ p :: back)).outcome .unbounded =
      ⟨.error (.overflow ⟨n⟩), front.flatMap bytes⟩ := by
  rw [writeAll_append, outcome_bind, outcome_writeAll_of_allFit fit, writeAll_cons, outcome_bind,
    outcome_of_refused refused]
  show Outcome.mk (.error (.overflow ⟨n⟩)) (front.flatMap bytes ++ []) = _
  rw [List.append_nil]

theorem succeeds_writeAll_iff {parts : List Part} : Succeeds (writeAll parts) ↔ AllFit parts := by
  constructor
  · intro given
    obtain ⟨bs, emitted⟩ := given
    apply Classical.byContradiction
    intro large
    -- a part that does not fit would have ended the run with an error
    obtain ⟨front, p, n, back, rfl, fit, refused⟩ := exists_first_refused large
    have written := emits_iff_outcome.mp emitted
    rw [outcome_writeAll_of_refused fit refused] at written
    cases written
  · intro fit
    exact ⟨_, emits_iff_outcome.mpr (outcome_writeAll_of_allFit fit)⟩

end Part

end JvmClass
