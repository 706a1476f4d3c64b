import JvmClass.Proofs.Annotation.Fits
import JvmClass.Proofs.Attribute.Length

/-!
# JvmClass.Proofs.Attribute.Canonical — the attributes that reading gives.

An attribute that was built by hand may carry a payload that its name does not announce, a tree that
is too deep to be read, or raw bytes that would have been read as something else.  An attribute is
canonical if none of this is so.  What can be read depends on how many levels are left, and a body
leaves one level less to the attributes in it; so canonicity is by recursion on the levels, like
reading itself.
-/

namespace JvmClass

open Writer

/-- Payloads other than raw bytes that can be read with this many levels left, where `Nested` tells
which attributes can stand in a body. -/
def Payload.TypedWith (levels : Nat) (Nested : Attribute → Prop) : Payload → Prop
  | .annotations list => ∀ a ∈ list, a.Fits levels
  | .typeAnnotations list => ∀ a ∈ list, a.Fits levels
  | .parameterAnnotations parameters => ∀ list ∈ parameters, ∀ a ∈ list, a.Fits levels
  | .annotationDefault value => value.Fits levels
  | .code body => 0 < levels ∧ ∀ a ∈ body.attributes, Nested a
  | .raw _ => False
  | _ => True

/-- A typed payload has to go with the name, which has to be a defined one.  Raw bytes must not be
those of a typed payload that goes with the name. -/
def Attribute.CanonicalWith (pool : Pool) (Typed : Payload → Prop) : Attribute → Prop
  | ⟨index, .raw bytes⟩ => ∀ name p, pool.attributeName? index = some name → p.belongsTo name →
    Typed p → ¬ Emits p.write bytes
  | ⟨index, p⟩ => Typed p ∧ ∃ name, pool.attributeName? index = some name ∧ p.belongsTo name

/-- The attribute is one that reading with this many levels left gives. -/
def Attribute.Canonical (pool : Pool) : (levels : Nat) → Attribute → Prop
  | 0 => CanonicalWith pool (Payload.TypedWith 0 fun _ => False)
  | levels + 1 =>
    CanonicalWith pool (Payload.TypedWith (levels + 1) (Attribute.Canonical pool levels))

/-- The attributes that can stand in a body when this many levels are left outside of it. -/
def Attribute.CanonicalInside (pool : Pool) : (levels : Nat) → Attribute → Prop
  | 0 => fun _ => False
  | levels + 1 => Attribute.Canonical pool levels

theorem Attribute.canonical_iff {pool : Pool} {levels : Nat} {a : Attribute} :
    a.Canonical pool levels ↔
      a.CanonicalWith pool (Payload.TypedWith levels (CanonicalInside pool levels)) := by
  cases levels <;> rfl

/-! ## Kinds -/

theorem AttributeName.payloadKind?_ne_raw (name : AttributeName) :
    name.payloadKind? ≠ some .raw := by
  cases name <;> decide

theorem Payload.kind_ne_raw_of_typed {levels : Nat} {Nested : Attribute → Prop} {p : Payload}
    (h : p.TypedWith levels Nested) : p.kind ≠ .raw := by
  intro raw
  cases p with
  | raw bytes => exact h
  | _ => cases raw

/-- A payload that is not raw goes with the names that announce its kind. -/
theorem Payload.belongsTo_iff {p : Payload} {name : AttributeName} (typed : p.kind ≠ .raw) :
    p.belongsTo name = true ↔ name.payloadKind? = some p.kind := by
  have notRaw : p.isRaw = false := by
    unfold Payload.isRaw
    exact beq_false_of_ne typed
  rw [Payload.belongsTo, notRaw, Bool.false_or, beq_iff_eq]

/-- The name in a slot announces payloads of a kind. -/
def Pool.Announces (pool : Pool) (index : UInt16) (kind : PayloadKind) : Prop :=
  ∃ name, pool.attributeName? index = some name ∧ name.payloadKind? = some kind

theorem Pool.announces_iff {pool : Pool} {index : UInt16} {name : AttributeName}
    {kind : PayloadKind} (h : pool.attributeName? index = some name) :
    pool.Announces index kind ↔ name.payloadKind? = some kind := by
  constructor
  · intro given
    rcases given with ⟨name', named, announced⟩
    rw [h] at named
    cases named
    exact announced
  · exact fun announced => ⟨name, h, announced⟩

theorem Attribute.canonicalWith_iff_of_kind {pool : Pool} {Typed : Payload → Prop} {index : UInt16}
    {p : Payload} (typed : p.kind ≠ .raw) :
    Attribute.CanonicalWith pool Typed ⟨index, p⟩ ↔ pool.Announces index p.kind ∧ Typed p := by
  unfold Pool.Announces
  simp only [← Payload.belongsTo_iff typed]
  rw [and_comm]
  cases p with
  | raw bytes => exact absurd rfl typed
  | _ => rfl

theorem Attribute.canonicalWith_raw_iff {pool : Pool} {Typed : Payload → Prop} {index : UInt16}
    {bytes : Bytes} (typed : ∀ q, Typed q → q.kind ≠ .raw) :
    Attribute.CanonicalWith pool Typed ⟨index, .raw bytes⟩ ↔
      ∀ q, ¬ (pool.Announces index q.kind ∧ Typed q ∧ Emits q.write bytes) := by
  constructor
  · rintro canonical q ⟨⟨name, named, announced⟩, ht, written⟩
    have belongs := (Payload.belongsTo_iff (typed q ht)).mpr announced
    exact canonical name q named belongs ht written
  · intro untyped name q named belongs ht written
    have announced := (Payload.belongsTo_iff (typed q ht)).mp belongs
    exact untyped q ⟨⟨name, named, announced⟩, ht, written⟩

/-- Given the name and the bytes of an attribute, canonicity leaves no choice: the payload is the
one that the bytes stand for, and raw if they stand for none. -/
theorem Attribute.canonicalWith_and_emits_iff {pool : Pool} {Typed : Payload → Prop}
    {index : UInt16} {p : Payload} {bytes : Bytes} (typed : ∀ q, Typed q → q.kind ≠ .raw) :
    Attribute.CanonicalWith pool Typed ⟨index, p⟩ ∧ Emits p.write bytes ↔
      (pool.Announces index p.kind ∧ Typed p ∧ Emits p.write bytes) ∨
        p = .raw bytes ∧ ∀ q, ¬ (pool.Announces index q.kind ∧ Typed q ∧ Emits q.write bytes) := by
  -- raw bytes are written as they are, so only they leave the choice open
  by_cases raw : p.kind = .raw
  · have untyped : ¬ Typed p := fun ht => typed p ht raw
    cases p with
    | raw bytes' =>
        rw [canonicalWith_raw_iff typed, Payload.raw.injEq]
        constructor
        · rintro ⟨none, written⟩
          cases emits_bytes_iff.mp written
          exact .inr ⟨rfl, none⟩
        · rintro (⟨-, ht, -⟩ | ⟨rfl, none⟩)
          · exact absurd ht untyped
          · exact ⟨none, emits_bytes_iff.mpr rfl⟩
    | _ => cases raw
  · have notRaw : p ≠ .raw bytes := by
      rintro rfl
      exact raw rfl
    rw [canonicalWith_iff_of_kind raw, and_assoc]
    exact ⟨.inl, fun h => h.resolve_right fun kept => notRaw kept.1⟩

/-- Every name and every payload that fits its length field are those of a canonical attribute. -/
theorem Attribute.exists_canonical (pool : Pool) (levels : Nat) (index : UInt16) (bytes : Bytes)
    (short : bytes.length < 0x100000000) :
    ∃ p, (Attribute.Canonical pool levels ⟨index, p⟩ ∧ Attribute.Short ⟨index, p⟩) ∧
      Emits (Attribute.write ⟨index, p⟩)
        (.ofWord16 index ++ (.ofWord32 (sizeWord bytes) ++ bytes)) := by
  have typed : ∀ q, Payload.TypedWith levels (CanonicalInside pool levels) q → q.kind ≠ .raw :=
    fun _ => Payload.kind_ne_raw_of_typed
  have settled : ∃ p, Attribute.CanonicalWith pool
      (Payload.TypedWith levels (CanonicalInside pool levels)) ⟨index, p⟩ ∧
        Emits p.write bytes := by
    -- either some typed payload is written in these bytes, or they are kept raw
    by_cases readable : ∃ q, pool.Announces index q.kind ∧
        Payload.TypedWith levels (CanonicalInside pool levels) q ∧ Emits q.write bytes
    · obtain ⟨q, h⟩ := readable
      exact ⟨q, (canonicalWith_and_emits_iff typed).mpr (.inl h)⟩
    · have none := not_exists.mp readable
      exact ⟨.raw bytes, (canonicalWith_and_emits_iff typed).mpr (.inr ⟨rfl, none⟩)⟩
  obtain ⟨p, canonical, written⟩ := settled
  refine ⟨p, and_assoc.mpr ⟨canonical_iff.mpr canonical, ?_⟩⟩
  exact short_and_emits_iff.mpr ⟨bytes, short, written, rfl⟩

end JvmClass
