import JvmClass.Proofs.Bytes.Grammar

/-!
# JvmClass.Proofs.Bytes.Arithmetic — one sum, taken in three ways.

A length is a sum over the parts of what is measured.  Stored lengths are summed up in 32-bit words,
which wrap; what they should be is a sum of natural numbers; and whether they wrap anywhere on the
way is seen when each step that would wrap is refused.  An `Arithmetic` is what such a sum is taken
in, so the sum is written down once and read in all three.

Words have in common that a result can be computed in exact numbers first and made a word at the
end.  An arithmetic of which this is true is `Faithful`; it is true of words that wrap, and of words
that refuse to.
-/

namespace JvmClass

/-- What sums are taken in. -/
structure Arithmetic (α : Type) where
  ofNat : Nat → α
  add : α → α → α
  mul : α → α → α

namespace Arithmetic

/-- Natural numbers. -/
def exact : Arithmetic Nat := ⟨id, (· + ·), (· * ·)⟩

/-- Words that lose what they cannot hold. -/
def wrapping : Arithmetic UInt32 := ⟨.ofNat, (· + ·), (· * ·)⟩

/-- A number as a word, if the word can hold it. -/
def word? (n : Nat) : Option UInt32 :=
  if n < 0x100000000 then some (.ofNat n) else none

/-- Words where no step may lose anything: a number, a sum or a product that a word cannot hold is
refused, and so is all that is computed from it. -/
def checked : Arithmetic (Option UInt32) where
  ofNat := word?
  add a b := a.bind fun x => b.bind fun y => word? (x.toNat + y.toNat)
  mul a b := a.bind fun x => b.bind fun y => word? (x.toNat * y.toNat)

variable {α : Type}

/-- The sum of a list. -/
def sum (A : Arithmetic α) (terms : List α) : α :=
  terms.foldr A.add (A.ofNat 0)

/-- So many records of one size. -/
def records (A : Arithmetic α) (size count : Nat) : α :=
  A.mul (A.ofNat size) (A.ofNat count)

/-- Results can be computed in exact numbers and taken over.  For products this need only be so
where the first factor is the size of a record. -/
structure Faithful (A : Arithmetic α) : Prop where
  add : ∀ a b, A.add (A.ofNat a) (A.ofNat b) = A.ofNat (a + b)
  records : ∀ size count, 0 < size → size < 0x100000000 →
    A.records size count = A.ofNat (size * count)

namespace Faithful

variable {A : Arithmetic α}

theorem sum_map {β : Type} (faithful : A.Faithful) {f : β → α} {size : β → Nat} {bs : List β}
    (each : ∀ b ∈ bs, f b = A.ofNat (size b)) :
    A.sum (bs.map f) = A.ofNat (exact.sum (bs.map size)) := by
  induction bs with
  | nil => rfl
  | cons b bs ih =>
      have rest := ih fun c hc => each c (List.mem_cons_of_mem b hc)
      show A.add (f b) (A.sum (bs.map f)) = _
      rw [each b List.mem_cons_self, rest, faithful.add]
      rfl

end Faithful

theorem faithful_wrapping : wrapping.Faithful where
  add a b := (UInt32.ofNat_add a b).symm
  records size count _ _ := (UInt32.ofNat_mul size count).symm

theorem word?_of_lt {n : Nat} (small : n < 0x100000000) : word? n = some (.ofNat n) :=
  if_pos small

theorem word?_of_le {n : Nat} (large : 0x100000000 ≤ n) : word? n = none :=
  if_neg (Nat.not_lt.mpr large)

theorem faithful_checked : checked.Faithful where
  add a b := by
    show (word? a).bind (fun x => (word? b).bind fun y => word? (x.toNat + y.toNat)) = word? (a + b)
    -- a term that no word can hold makes the sum too large as well
    by_cases smallA : a < 0x100000000
    · by_cases smallB : b < 0x100000000
      · rw [word?_of_lt smallA, word?_of_lt smallB]
        show word? ((UInt32.ofNat a).toNat + (UInt32.ofNat b).toNat) = _
        rw [UInt32.toNat_ofNat_of_lt' smallA, UInt32.toNat_ofNat_of_lt' smallB]
      · rw [word?_of_le (n := b) (by omega), word?_of_le (n := a + b) (by omega),
          word?_of_lt smallA]
        rfl
    · rw [word?_of_le (n := a) (by omega), word?_of_le (n := a + b) (by omega)]
      rfl
  records size count positive small := by
    show (word? size).bind (fun x => (word? count).bind fun y => word? (x.toNat * y.toNat)) =
      word? (size * count)
    rw [word?_of_lt small]
    by_cases few : count < 0x100000000
    · rw [word?_of_lt few]
      show word? ((UInt32.ofNat size).toNat * (UInt32.ofNat count).toNat) = _
      rw [UInt32.toNat_ofNat_of_lt' small, UInt32.toNat_ofNat_of_lt' few]
    · -- records are not empty, so they take no fewer bytes than there are records
      have many : count ≤ size * count := Nat.le_mul_of_pos_left count positive
      rw [word?_of_le (n := count) (by omega), word?_of_le (n := size * count) (by omega)]
      rfl

end Arithmetic

/-! ## Sizes of lists -/

/-- The bytes of a list are as many as those of its elements together. -/
theorem Series.length_eq_sum {α : Type} {R : α → Bytes → Prop} {size : α → Nat} {as : List α}
    {bs : Bytes} (h : Series R as bs) (each : ∀ a x, R a x → x.length = size a) :
    bs.length = Arithmetic.exact.sum (as.map size) := by
  induction h with
  | nil => rfl
  | @cons a as x y hx _ ih =>
      rw [List.length_append, each a x hx, ih]
      rfl

theorem Table.length_eq_sum {α : Type} {R : α → Bytes → Prop} {size : α → Nat} {as : List α}
    {bs : Bytes} (h : Table R as bs) (each : ∀ a x, R a x → x.length = size a) :
    bs.length = 2 + Arithmetic.exact.sum (as.map size) := by
  obtain ⟨-, body, series, rfl⟩ := h
  rw [List.length_append, series.length_eq_sum each]
  rfl

end JvmClass
