import JvmClass.Bytes.Word

/-!
# JvmClass.Proofs.Bytes.Grammar — the bytes that stand for a value, as a relation.

A part of the format is described by a relation `R : α → Bytes → Prop`, which holds between a value
and each stretch of bytes that may stand for it.  Readers and writers are compared with such
relations one by one, and never with each other: `Emits` says which bytes a writer hands over, and
`Reads` says that a reader takes exactly the bytes of a relation off the front of its input.

`Series R` is the relation of a list whose elements lie one behind the other.  `Table R` is that
of a list with its count in front, and `ShortTable R` that of one whose count takes a single byte.
-/

namespace JvmClass

/-- The bytes of a list: those of its elements, one behind the other. -/
inductive Series {α : Type} (R : α → Bytes → Prop) : List α → Bytes → Prop
  | nil : Series R [] []
  | cons {a : α} {as : List α} {x y : Bytes} :
      R a x → Series R as y → Series R (a :: as) (x ++ y)

namespace Series

variable {α β : Type} {R S : α → Bytes → Prop}

theorem nil_iff {bs : Bytes} : Series R [] bs ↔ bs = [] := by
  constructor
  · intro h
    cases h
    rfl
  · rintro rfl
    exact .nil

theorem cons_iff {a : α} {as : List α} {bs : Bytes} :
    Series R (a :: as) bs ↔ ∃ x y, R a x ∧ Series R as y ∧ bs = x ++ y := by
  constructor
  · intro h
    cases h with
    | cons hx hy => exact ⟨_, _, hx, hy, rfl⟩
  · rintro ⟨x, y, hx, hy, rfl⟩
    exact .cons hx hy

theorem append_iff {as bs : List α} {z : Bytes} :
    Series R (as ++ bs) z ↔ ∃ x y, Series R as x ∧ Series R bs y ∧ z = x ++ y := by
  -- an element moves from the front of one list to the other, so the bytes must stay arbitrary
  induction as generalizing z with
  | nil => simp [nil_iff]
  | cons a as ih =>
      rw [List.cons_append, cons_iff]
      constructor
      · rintro ⟨x, y, hx, hy, rfl⟩
        obtain ⟨y₁, y₂, h₁, h₂, rfl⟩ := ih.mp hy
        exact ⟨x ++ y₁, y₂, .cons hx h₁, h₂, by rw [List.append_assoc]⟩
      · rintro ⟨x, y, hx, hy, rfl⟩
        obtain ⟨x₁, x₂, h₁, h₂, rfl⟩ := cons_iff.mp hx
        exact ⟨x₁, x₂ ++ y, h₁, ih.mpr ⟨x₂, y, h₂, hy, rfl⟩, by rw [List.append_assoc]⟩

/-- Relations that agree on the elements of a list agree on the list. -/
theorem congr {as : List α} {bs : Bytes} (same : ∀ a ∈ as, ∀ x, R a x ↔ S a x) :
    Series R as bs ↔ Series S as bs := by
  induction as generalizing bs with
  | nil => simp only [nil_iff]
  | cons a as ih =>
      have rest : ∀ y, Series R as y ↔ Series S as y := fun y =>
        ih fun b hb => same b (List.mem_cons_of_mem a hb)
      simp only [cons_iff, same a List.mem_cons_self, rest]

theorem mono {as : List α} {bs : Bytes} (h : Series R as bs)
    (weaker : ∀ a ∈ as, ∀ x, R a x → S a x) : Series S as bs := by
  induction h with
  | nil => exact .nil
  | @cons a as x y hx _ ih =>
      have rest := ih fun b hb => weaker b (List.mem_cons_of_mem a hb)
      exact .cons (weaker a List.mem_cons_self x hx) rest

/-- Elements can be exchanged for others with the same bytes. -/
theorem map {f : α → β} {T : β → Bytes → Prop} {as : List α} {bs : Bytes} (h : Series R as bs)
    (each : ∀ a ∈ as, ∀ x, R a x → T (f a) x) : Series T (as.map f) bs := by
  induction h with
  | nil => exact .nil
  | @cons a as x y hx _ ih =>
      have rest := ih fun b hb => each b (List.mem_cons_of_mem a hb)
      exact .cons (each a List.mem_cons_self x hx) rest

/-- The same where the others are only known to exist. -/
theorem exchange {T : β → Bytes → Prop} {as : List α} {bs : Bytes} (h : Series R as bs)
    (each : ∀ a ∈ as, ∀ x, R a x → ∃ b, T b x) :
    ∃ as' : List β, as'.length = as.length ∧ Series T as' bs := by
  induction h with
  | nil => exact ⟨[], rfl, .nil⟩
  | @cons a as x y hx _ ih =>
      obtain ⟨b, hb⟩ := each a List.mem_cons_self x hx
      obtain ⟨as', same, rest⟩ := ih fun b hb => each b (List.mem_cons_of_mem a hb)
      exact ⟨b :: as', congrArg (· + 1) same, .cons hb rest⟩

/-- A condition on the elements can be stated beside the bytes. -/
theorem and_iff {P : α → Prop} {as : List α} {bs : Bytes} :
    Series (fun a x => P a ∧ R a x) as bs ↔ (∀ a ∈ as, P a) ∧ Series R as bs := by
  induction as generalizing bs with
  | nil => simp [nil_iff]
  | cons a as ih =>
      simp only [cons_iff, ih, List.forall_mem_cons]
      constructor
      · intro given
        rcases given with ⟨x, y, ⟨pa, hx⟩, ⟨pas, hy⟩, h⟩
        exact ⟨⟨pa, pas⟩, x, y, hx, hy, h⟩
      · intro given
        rcases given with ⟨⟨pa, pas⟩, x, y, hx, hy, h⟩
        exact ⟨x, y, ⟨pa, hx⟩, ⟨pas, hy⟩, h⟩

/-- Elements of one size. -/
theorem length_eq {size : Nat} {as : List α} {bs : Bytes} (h : Series R as bs)
    (each : ∀ a x, R a x → x.length = size) : bs.length = size * as.length := by
  induction h with
  | nil => rfl
  | @cons a as x y hx _ ih =>
      rw [List.length_append, each a x hx, ih, List.length_cons, Nat.mul_succ, Nat.add_comm]

/-- An element has its place among the bytes, and what is put there instead takes its place. -/
theorem around {as : List α} {bs : Bytes} (h : Series R as bs) {k : Nat} {a : α}
    (ha : as[k]? = some a) :
    ∃ u x v, bs = u ++ (x ++ v) ∧ Series R (as.take k) u ∧ R a x ∧
      ∀ f y, R (f a) y → Series R (as.modify k f) (u ++ (y ++ v)) := by
  -- the position counts down along the list, and what stands in front of it grows
  induction h generalizing k with
  | nil => cases ha
  | @cons b as x y hx hy ih =>
      cases k with
      | zero =>
          obtain rfl : b = a := Option.some.inj ha
          refine ⟨[], x, y, rfl, .nil, hx, ?_⟩
          intro f z hz
          show Series R (f b :: as) (z ++ y)
          exact .cons hz hy
      | succ k =>
          obtain ⟨u, z, v, rfl, front, hz, put⟩ := ih ha
          refine ⟨x ++ u, z, v, (List.append_assoc x u _).symm, .cons hx front, hz, ?_⟩
          intro f w hw
          rw [List.append_assoc]
          exact .cons hx (put f w hw)

/-- Each element of a list has its bytes among those of the list. -/
theorem exists_infix_of_mem {a : α} {as : List α} {bs : Bytes} (h : Series R as bs) (ha : a ∈ as) :
    ∃ x, R a x ∧ x <:+: bs := by
  obtain ⟨k, hk⟩ := List.getElem?_of_mem ha
  obtain ⟨u, x, v, rfl, -, hx, -⟩ := h.around hk
  exact ⟨x, hx, u, v, List.append_assoc u x v⟩

end Series

/-- The bytes of a list with its count in front.  The count takes two bytes. -/
def Table {α : Type} (R : α → Bytes → Prop) (as : List α) (bs : Bytes) : Prop :=
  as.length < 0x10000 ∧ ∃ body, Series R as body ∧ bs = Bytes.ofWord16 (.ofNat as.length) ++ body

namespace Table

variable {α : Type} {R S : α → Bytes → Prop}

theorem congr {as : List α} {bs : Bytes} (same : ∀ a ∈ as, ∀ x, R a x ↔ S a x) :
    Table R as bs ↔ Table S as bs := by
  unfold Table
  simp only [Series.congr same]

theorem map {β : Type} {f : α → β} {T : β → Bytes → Prop} {as : List α} {bs : Bytes}
    (h : Table R as bs) (each : ∀ a ∈ as, ∀ x, R a x → T (f a) x) : Table T (as.map f) bs := by
  obtain ⟨small, body, series, rfl⟩ := h
  refine ⟨?_, body, series.map each, ?_⟩
  · rwa [List.length_map]
  · rw [List.length_map]

theorem exchange {β : Type} {T : β → Bytes → Prop} {as : List α} {bs : Bytes} (h : Table R as bs)
    (each : ∀ a ∈ as, ∀ x, R a x → ∃ b, T b x) : ∃ as' : List β, Table T as' bs := by
  obtain ⟨small, body, series, rfl⟩ := h
  obtain ⟨as', same, series'⟩ := series.exchange each
  exact ⟨as', same ▸ small, body, series', by rw [same]⟩

theorem and_iff {P : α → Prop} {as : List α} {bs : Bytes} :
    Table (fun a x => P a ∧ R a x) as bs ↔ (∀ a ∈ as, P a) ∧ Table R as bs := by
  unfold Table
  simp only [Series.and_iff]
  constructor
  · intro given
    rcases given with ⟨small, body, ⟨all, h⟩, rfl⟩
    exact ⟨all, small, body, h, rfl⟩
  · intro given
    rcases given with ⟨all, small, body, h, rfl⟩
    exact ⟨small, body, ⟨all, h⟩, rfl⟩

theorem length_eq {size : Nat} {as : List α} {bs : Bytes} (h : Table R as bs)
    (each : ∀ a x, R a x → x.length = size) : bs.length = 2 + size * as.length := by
  obtain ⟨-, body, series, rfl⟩ := h
  rw [List.length_append, series.length_eq each]
  rfl

theorem around {as : List α} {bs : Bytes} (h : Table R as bs) {k : Nat} {a : α}
    (ha : as[k]? = some a) :
    ∃ u x v, bs = Bytes.ofWord16 (.ofNat as.length) ++ u ++ (x ++ v) ∧ Series R (as.take k) u ∧
      R a x ∧ ∀ f y, R (f a) y →
        Table R (as.modify k f) (Bytes.ofWord16 (.ofNat as.length) ++ u ++ (y ++ v)) := by
  obtain ⟨small, body, series, rfl⟩ := h
  obtain ⟨u, x, v, rfl, front, hx, put⟩ := series.around ha
  refine ⟨u, x, v, (List.append_assoc _ u _).symm, front, hx, ?_⟩
  intro f y hy
  refine ⟨?_, _, put f y hy, ?_⟩
  · rwa [List.length_modify]
  · rw [List.length_modify, List.append_assoc]

theorem exists_infix_of_mem {a : α} {as : List α} {bs : Bytes} (h : Table R as bs) (ha : a ∈ as) :
    ∃ x, R a x ∧ x <:+: bs := by
  obtain ⟨-, body, series, rfl⟩ := h
  obtain ⟨x, hx, within⟩ := series.exists_infix_of_mem ha
  exact ⟨x, hx, within.trans (List.suffix_append _ body).isInfix⟩

end Table

/-- The bytes of a list with its count in front, where the count takes one byte. -/
def ShortTable {α : Type} (R : α → Bytes → Prop) (as : List α) (bs : Bytes) : Prop :=
  as.length < 0x100 ∧ ∃ body, Series R as body ∧ bs = UInt8.ofNat as.length :: body

theorem ShortTable.and_iff {α : Type} {R : α → Bytes → Prop} {P : α → Prop} {as : List α}
    {bs : Bytes} :
    ShortTable (fun a x => P a ∧ R a x) as bs ↔ (∀ a ∈ as, P a) ∧ ShortTable R as bs := by
  unfold ShortTable
  simp only [Series.and_iff]
  constructor
  · intro given
    rcases given with ⟨small, body, ⟨all, h⟩, rfl⟩
    exact ⟨all, small, body, h, rfl⟩
  · intro given
    rcases given with ⟨all, small, body, h, rfl⟩
    exact ⟨small, body, ⟨all, h⟩, rfl⟩

end JvmClass
