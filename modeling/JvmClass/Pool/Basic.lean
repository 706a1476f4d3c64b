import JvmClass.Error
import JvmClass.Pool.EntryText

/-!
# JvmClass.Pool.Basic — the constant pool.

Slots are numbered from 1, and the number 0 stands for the absence of a constant.  The size that is
stored on disk is therefore one more than the number of slots.  `push` appends a constant in the
layout that reading produces, and refuses one that would make the size too large to store.
-/

namespace JvmClass

/-- Why a slot does not yield the constant that was asked for. -/
inductive LookupError where
  /-- No slot has this number. -/
  | outOfBounds (index : UInt16) (size : Nat)
  /-- The slot holds something of another kind. -/
  | unexpected (wanted : Tag) (found : Entry)
  deriving DecidableEq

/-- The wording of a lookup error. -/
def LookupError.message : LookupError → String
  | outOfBounds index size =>
    "Constant pool index " ++ toString index.toNat ++ " out of bounds (size " ++
      toString size ++ ")"
  | unexpected wanted found => "Expected " ++ wanted.name ++ ", found " ++ found.describe

/-- The constants of a class, slot 1 first. -/
structure Pool where
  slots : Array Entry
  deriving DecidableEq

namespace Pool

/-- The pool without constants. -/
def empty : Pool := ⟨#[]⟩

/-- The pool that holds the given constants one after the other, each in the slots it takes. -/
def ofEntries (entries : List Entry) : Pool :=
  ⟨(entries.flatMap Entry.slots).toArray⟩

/-- One more than the greatest slot number. -/
def size (p : Pool) : Nat :=
  p.slots.size + 1

/-- The contents of a slot, if there is one of that number. -/
def get? (p : Pool) (index : UInt16) : Option Entry :=
  if index = 0 then none else p.slots[index.toNat - 1]?

/-- The contents of a slot. -/
def get (p : Pool) (index : UInt16) : Except LookupError Entry :=
  match p.get? index with
  | some entry => .ok entry
  | none => .error (.outOfBounds index p.size)

/-- The text of the string constant in a slot. -/
def utf8 (p : Pool) (index : UInt16) : Except LookupError String :=
  match p.get index with
  | .ok (.utf8 text) => .ok text
  | .ok entry => .error (.unexpected .utf8 entry)
  | .error e => .error e

/-- The text of the string constant in a slot, if the slot holds one. -/
def utf8? (p : Pool) (index : UInt16) : Option String :=
  match p.get? index with
  | some (.utf8 text) => some text
  | _ => none

/-- The slot of the name of the class constant in a slot. -/
def classRef (p : Pool) (index : UInt16) : Except LookupError UInt16 :=
  match p.get index with
  | .ok (.classRef name) => .ok name
  | .ok entry => .error (.unexpected .classRef entry)
  | .error e => .error e

/-- The name of the class constant in a slot. -/
def className (p : Pool) (index : UInt16) : Except LookupError String :=
  p.classRef index >>= p.utf8

/-- The kind of the constant in a slot, if the slot holds one. -/
def tag? (p : Pool) (index : UInt16) : Option Tag :=
  (p.get? index).bind Entry.tag?

/-- The greatest size that can be stored. -/
def maxSize : Nat := 65535

/-- Appends a constant in the slots it takes, and gives its number.  Fails when the pool would
become larger than `maxSize`. -/
def push (p : Pool) (e : Entry) : Except Overflow (UInt16 × Pool) :=
  let size := p.size + e.width
  if maxSize < size then .error ⟨size⟩
  else .ok (.ofNat p.size, ⟨p.slots ++ e.slots⟩)

/-- Equality of pools as values, see `Entry.numericEq`. -/
def numericEq (p q : Pool) : Bool :=
  p.slots.size == q.slots.size &&
    (p.slots.toList.zip q.slots.toList).all fun e => e.1.numericEq e.2

/-! ## Look-ups and calls that succeed -/

theorem get?_eq_none_iff {p : Pool} {index : UInt16} :
    p.get? index = none ↔ index = 0 ∨ p.size ≤ index.toNat := by
  unfold get? size
  by_cases zero : index = 0
  · rw [if_pos zero]
    exact ⟨fun _ => .inl zero, fun _ => rfl⟩
  · have positive : index.toNat ≠ 0 := fun h => zero (UInt16.toNat_inj.mp h)
    rw [if_neg zero, Array.getElem?_eq_none_iff, or_iff_right zero]
    omega

theorem get_eq_ok_iff {p : Pool} {index : UInt16} {e : Entry} :
    p.get index = .ok e ↔ p.get? index = some e := by
  unfold get
  cases p.get? index <;> simp

/-- A call fails just for want of room, and tells the size that the pool would have had. -/
theorem push_eq_error_iff {p : Pool} {e : Entry} {o : Overflow} :
    p.push e = .error o ↔ maxSize < p.size + e.width ∧ o = ⟨p.size + e.width⟩ := by
  unfold push
  by_cases full : maxSize < p.size + e.width
  · simp [full, eq_comm]
  · simp [full]

theorem push_eq_ok_iff {p q : Pool} {e : Entry} {i : UInt16} :
    p.push e = .ok (i, q) ↔
      p.size + e.width ≤ maxSize ∧ i = .ofNat p.size ∧ q = ⟨p.slots ++ e.slots⟩ := by
  unfold push
  by_cases full : maxSize < p.size + e.width
  · simp only [full, if_true, reduceCtorEq, Nat.not_le.mpr full, false_and]
  · simp [full, Nat.not_lt.mp full, eq_comm]

end Pool

end JvmClass
