import JvmClass.Proofs.Attribute.Reading

/-!
# JvmClass.Proofs.Attribute.Clipping — what the limit on nesting cuts off.

Bodies, annotations and arrays stand in one another, and no more than `maxNesting` of them are read.
An attribute that was built by hand can be written although it is deeper.  Reading it again gives it
back with the parts that are too deep left as bytes: an annotation or a value that exceeds the
levels left for it as a whole, and of a chain of bodies just the one for which no level is left.
`Payload.clip` does this to the tree; it counts down the levels that are left, from `maxNesting` for
an attribute that stands in no body.

Clipping leaves the bytes alone (`Payload.emits_clip`), and what it gives can be read
(`Attribute.canonical_clip`).
-/

namespace JvmClass

open Writer

/-! ## Depths -/

/-- The greatest value that a function takes on a list. -/
def greatest {α : Type} (f : α → Nat) (as : List α) : Nat :=
  (as.map f).foldr max 0

theorem greatest_le_iff {α : Type} {f : α → Nat} {as : List α} {n : Nat} :
    greatest f as ≤ n ↔ ∀ a ∈ as, f a ≤ n := by
  induction as with
  | nil => simp [greatest]
  | cons a as ih =>
      show max (f a) (greatest f as) ≤ n ↔ _
      rw [Nat.max_le, ih, List.forall_mem_cons]

mutual

/-- How many bodies, annotations and arrays stand in one another in a payload.  Those annotations
that are listed by the payload itself do not count. -/
def Payload.depth : Payload → Nat
  | .annotations list => greatest AnnotationNode.height list
  | .typeAnnotations list => greatest (fun a => a.node.height) list
  | .parameterAnnotations parameters => greatest (greatest AnnotationNode.height) parameters
  | .annotationDefault value => value.height
  | .code body => body.depth + 1
  | _ => 0

/-- The greatest depth in a body. -/
def CodeBody.depth : CodeBody → Nat
  | ⟨_, _, _, _, attributes⟩ => Attribute.depthAll attributes

/-- The greatest depth among the attributes. -/
def Attribute.depthAll : List Attribute → Nat
  | [] => 0
  | ⟨_, payload⟩ :: rest => max payload.depth (Attribute.depthAll rest)

end

theorem CodeBody.depth_le_iff {b : CodeBody} {n : Nat} :
    b.depth ≤ n ↔ ∀ a ∈ b.attributes, a.payload.depth ≤ n := by
  obtain ⟨_, _, _, _, attributes⟩ := b
  show Attribute.depthAll attributes ≤ n ↔ ∀ a ∈ attributes, a.payload.depth ≤ n
  induction attributes with
  | nil => simp [Attribute.depthAll]
  | cons a attributes ih =>
      obtain ⟨name, payload⟩ := a
      rw [Attribute.depthAll, Nat.max_le, ih, List.forall_mem_cons]

/-! ## Attributes that go with their names -/

/-- The target type selects the target that the annotation has, and the annotation is legal. -/
def TypeAnnotationNode.Legal (a : TypeAnnotationNode) : Prop :=
  TargetShape.ofType? a.targetType = some a.target.shape ∧ a.node.Legal

/-- The annotations and the values of the payload are legal. -/
def Payload.Legal : Payload → Prop
  | .annotations list => ∀ a ∈ list, a.Legal
  | .typeAnnotations list => ∀ a ∈ list, a.Legal
  | .parameterAnnotations parameters => ∀ list ∈ parameters, ∀ a ∈ list, a.Legal
  | .annotationDefault value => value.Legal
  | _ => True

/-- The attributes in the body that a payload is. -/
def Payload.inside : Payload → List Attribute
  | .code body => body.attributes
  | _ => []

/-- The attribute, and each one in it, carries a legal payload that goes with its name, or raw bytes
under a name that announces nothing. -/
inductive Attribute.Proper (pool : Pool) : Attribute → Prop
  | kept {index : UInt16} {bytes : Bytes} :
      (∀ kind, ¬ pool.Announces index kind) → Proper pool ⟨index, .raw bytes⟩
  | typed {index : UInt16} {name : AttributeName} {p : Payload} :
      pool.attributeName? index = some name → p.kind ≠ .raw → p.belongsTo name → p.Legal →
      (∀ a ∈ p.inside, Proper pool a) → Proper pool ⟨index, p⟩

/-! ## Clipping -/

/-- The bytes that are written for a payload. -/
def Payload.encoded (p : Payload) : Bytes :=
  match p.write .unbounded with
  | .ok _ s => s.written.toList
  | .error _ s => s.written.toList

theorem Payload.encoded_of_emits {p : Payload} {bs : Bytes} (h : Emits p.write bs) :
    p.encoded = bs := by
  rw [Payload.encoded, show p.write .unbounded = _ from h]

/-- The payload with this many levels left for it: bodies for which none is left, and annotations
and values that need more than are left, are turned into the bytes that they are written in. -/
def Payload.clip : (levels : Nat) → Payload → Payload
  | 0, .code body => .raw (Payload.code body).encoded
  | levels + 1, .code body =>
    .code { body with attributes := body.attributes.map fun a => ⟨a.name, clip levels a.payload⟩ }
  | levels, p => if p.depth ≤ levels then p else .raw p.encoded

/-- The attribute with this many levels left for its payload. -/
def Attribute.clip (levels : Nat) (a : Attribute) : Attribute :=
  ⟨a.name, a.payload.clip levels⟩

theorem Payload.kind_eq_code_iff {p : Payload} : p.kind = .code ↔ ∃ body, p = .code body := by
  cases p <;> simp [kind]

theorem Payload.clip_of_le {p : Payload} {levels : Nat} (flat : p.kind ≠ .code)
    (shallow : p.depth ≤ levels) : p.clip levels = p := by
  cases p with
  | code body => exact absurd rfl flat
  | _ => cases levels <;> exact if_pos shallow

theorem Payload.clip_of_lt {p : Payload} {levels : Nat} (flat : p.kind ≠ .code)
    (deep : levels < p.depth) : p.clip levels = .raw p.encoded := by
  cases p with
  | code body => exact absurd rfl flat
  | _ => cases levels <;> exact if_neg (Nat.not_le.mpr deep)

theorem Payload.clip_raw {bytes : Bytes} {levels : Nat} : (raw bytes).clip levels = raw bytes :=
  clip_of_le (p := raw bytes) nofun (Nat.zero_le levels)

/-! ## The bytes of what is clipped -/

theorem Payload.emits_raw_encoded {p : Payload} {bs : Bytes} (h : Emits p.write bs) :
    Emits (raw p.encoded).write bs :=
  emits_bytes_iff.mpr (encoded_of_emits h).symm

theorem Payload.emits_clip_of_flat {levels : Nat} {p : Payload} {bs : Bytes}
    (flat : p.kind ≠ .code) (h : Emits p.write bs) : Emits (p.clip levels).write bs := by
  rcases Nat.lt_or_ge levels p.depth with deep | shallow
  · rw [clip_of_lt flat deep]
    exact emits_raw_encoded h
  · rwa [clip_of_le flat shallow]

/-- Clipping does not change what is written. -/
theorem Payload.emits_clip {levels : Nat} {p : Payload} {bs : Bytes} (h : Emits p.write bs)
    (short : bs.length < 0x100000000) : Emits (p.clip levels).write bs := by
  induction levels generalizing p bs with
  | zero =>
      by_cases isBody : p.kind = .code
      · obtain ⟨body, rfl⟩ := kind_eq_code_iff.mp isBody
        exact emits_raw_encoded h
      · exact emits_clip_of_flat isBody h
  | succ levels ih =>
      by_cases isBody : p.kind = .code
      · obtain ⟨body, rfl⟩ := kind_eq_code_iff.mp isBody
        have inner : ∀ a ∈ body.attributes, a.Short := shortInside_of_emits h short
        obtain ⟨x, y, fits, handlers, table, rfl⟩ := (CodeBody.emits_write_iff (b := body)).mp h
        refine CodeBody.emits_write_iff.mpr ⟨x, y, fits, handlers, ?_, rfl⟩
        -- each attribute keeps its bytes, so its length stays right as well
        refine table.map fun a ha z hz => ?_
        obtain ⟨bytes, small, written, rfl⟩ := Attribute.short_and_emits_iff.mp ⟨inner a ha, hz⟩
        exact (Attribute.short_and_emits_iff.mpr ⟨bytes, small, ih written small, rfl⟩).2
      · exact emits_clip_of_flat isBody h

/-! ## What is clipped can be read -/

theorem forall_and_greatest_le_iff {α : Type} {P : α → Prop} {f : α → Nat} {as : List α} {n : Nat} :
    (∀ a ∈ as, P a ∧ f a ≤ n) ↔ (∀ a ∈ as, P a) ∧ greatest f as ≤ n := by
  rw [greatest_le_iff]
  constructor
  · exact fun h => ⟨fun a ha => (h a ha).1, fun a ha => (h a ha).2⟩
  · exact fun h a ha => ⟨h.1 a ha, h.2 a ha⟩

/-- Whether a payload other than a body can be read depends on its depth only, if it is legal. -/
theorem Payload.typedWith_iff_of_flat {levels : Nat} {Nested : Attribute → Prop} {p : Payload}
    (typed : p.kind ≠ .raw) (flat : p.kind ≠ .code) :
    p.TypedWith levels Nested ↔ p.Legal ∧ p.depth ≤ levels := by
  cases p with
  | raw bytes => exact absurd rfl typed
  | code body => exact absurd rfl flat
  | annotations list => exact forall_and_greatest_le_iff
  | typeAnnotations list =>
      simp only [TypedWith, Legal, depth, TypeAnnotationNode.Legal, TypeAnnotationNode.Fits,
        AnnotationNode.Fits, ← and_assoc]
      exact forall_and_greatest_le_iff
  | parameterAnnotations parameters =>
      simp only [TypedWith, AnnotationNode.Fits, forall_and_greatest_le_iff]
      rfl
  | annotationDefault value => exact Iff.rfl
  | _ => exact ⟨fun _ => ⟨trivial, Nat.zero_le levels⟩, fun _ => trivial⟩

theorem Pool.Announces.unique {pool : Pool} {index : UInt16} {kind kind' : PayloadKind}
    (h : pool.Announces index kind) (h' : pool.Announces index kind') : kind = kind' := by
  obtain ⟨name, named, announced⟩ := h
  rw [announces_iff named, announced] at h'
  exact Option.some.inj h'

/-- Canonical attributes are settled by the bytes they are written in. -/
theorem Attribute.eq_of_canonical {pool : Pool} {levels : Nat} {a b : Attribute} {bs : Bytes}
    (ha : a.Canonical pool levels) (hb : b.Canonical pool levels)
    (wa : a.Short ∧ Emits a.write bs) (wb : b.Short ∧ Emits b.write bs) : a = b :=
  ((Attribute.reads pool levels).split_unique (s := ⟨bs ++ [], #[]⟩) rfl ⟨ha, wa⟩ ⟨hb, wb⟩ rfl).1

section Canonical

variable {pool : Pool} {levels : Nat} {index : UInt16} {p : Payload} {bs : Bytes}

theorem Attribute.canonical_of_flat (announced : pool.Announces index p.kind)
    (typed : p.kind ≠ .raw) (flat : p.kind ≠ .code) (legal : p.Legal) (shallow : p.depth ≤ levels) :
    Canonical pool levels ⟨index, p⟩ := by
  rw [canonical_iff, canonicalWith_iff_of_kind typed, Payload.typedWith_iff_of_flat typed flat]
  exact ⟨announced, legal, shallow⟩

theorem Attribute.canonical_raw_iff {bytes : Bytes} : Canonical pool levels ⟨index, .raw bytes⟩ ↔
    ∀ q : Payload, ¬ (pool.Announces index q.kind ∧
      q.TypedWith levels (CanonicalInside pool levels) ∧ Emits q.write bytes) := by
  rw [canonical_iff, canonicalWith_raw_iff fun _ => Payload.kind_ne_raw_of_typed]

/-- The bytes of a payload that is too deep cannot be read as another that is not. -/
theorem Attribute.canonical_clip_of_flat (announced : pool.Announces index p.kind)
    (typed : p.kind ≠ .raw) (flat : p.kind ≠ .code) (legal : p.Legal) (h : Emits p.write bs)
    (short : bs.length < 0x100000000) : Canonical pool levels ⟨index, p.clip levels⟩ := by
  rcases Nat.lt_or_ge levels p.depth with deep | shallow
  · rw [Payload.clip_of_lt flat deep, Payload.encoded_of_emits h, canonical_raw_iff]
    rintro q ⟨announced', typed', written⟩
    have same := announced.unique announced'
    obtain ⟨legal', shallow⟩ :=
      (Payload.typedWith_iff_of_flat (same ▸ typed) (same ▸ flat)).mp typed'
    -- with enough levels for both of them, the two would be read from the same bytes
    have hp := canonical_of_flat announced typed flat legal (Nat.le_refl p.depth)
    have hq := canonical_of_flat announced' (same ▸ typed) (same ▸ flat) legal'
      (Nat.le_trans shallow (Nat.le_of_lt deep))
    have equal := eq_of_canonical hp hq (short_and_emits_iff.mpr ⟨bs, short, h, rfl⟩)
      (short_and_emits_iff.mpr ⟨bs, short, written, rfl⟩)
    cases equal
    exact Nat.not_le.mpr deep shallow
  · rw [Payload.clip_of_le flat shallow]
    exact canonical_of_flat announced typed flat legal shallow

/-- A body can be read if there is a level for it and what is left inside of it can be read. -/
theorem Attribute.canonical_clip_body {body : CodeBody} (announced : pool.Announces index .code)
    (inside : ∀ n, levels = n + 1 → ∀ a ∈ body.attributes, (a.clip n).Canonical pool n) :
    Canonical pool levels ⟨index, (Payload.code body).clip levels⟩ := by
  cases levels with
  | zero =>
      refine canonical_raw_iff.mpr ?_
      rintro q ⟨announced', typed', -⟩
      -- only another body could stand here, and none can
      obtain ⟨body', rfl⟩ := Payload.kind_eq_code_iff.mp (announced'.unique announced)
      exact absurd typed'.1 (Nat.lt_irrefl 0)
  | succ n =>
      rw [canonical_iff, Payload.clip, canonicalWith_iff_of_kind (p := .code _) nofun]
      refine ⟨announced, Nat.succ_pos n, fun c hc => ?_⟩
      obtain ⟨a, ha, rfl⟩ := List.mem_map.mp hc
      exact inside n rfl a ha

end Canonical

/-- What stands in a body that was written was written itself. -/
theorem CodeBody.exists_stored_of_mem {body : CodeBody} {bs : Bytes} (h : Emits body.write bs)
    (short : bs.length < 0x100000000) {a : Attribute} (ha : a ∈ body.attributes) :
    ∃ x, a.Short ∧ Emits a.write x := by
  obtain ⟨x, hx, -⟩ := exists_infix_of_mem h ha
  exact ⟨x, Payload.shortInside_of_emits (p := .code body) h short a ha, hx⟩

theorem CodeBody.exists_written_of_mem {body : CodeBody} {bs : Bytes} (h : Emits body.write bs)
    (short : bs.length < 0x100000000) {a : Attribute} (ha : a ∈ body.attributes) :
    ∃ bytes, bytes.length < 0x100000000 ∧ Emits a.payload.write bytes := by
  obtain ⟨x, stored⟩ := exists_stored_of_mem h short ha
  obtain ⟨bytes, small, written, -⟩ := Attribute.short_and_emits_iff.mp stored
  exact ⟨bytes, small, written⟩

/-- What a proper attribute is clipped to is canonical. -/
theorem Attribute.canonical_clip {pool : Pool} {levels : Nat} {a : Attribute} {bs : Bytes}
    (proper : a.Proper pool) (h : Emits a.payload.write bs) (short : bs.length < 0x100000000) :
    (a.clip levels).Canonical pool levels := by
  -- a body takes one level away from the attributes in it
  induction proper generalizing levels bs with
  | kept none =>
      rw [clip, Payload.clip_raw, canonical_raw_iff]
      exact fun q h => none _ h.1
  | @typed index name p named typed belongs legal _ ih =>
      have announced : pool.Announces index p.kind :=
        ⟨name, named, (Payload.belongsTo_iff typed).mp belongs⟩
      by_cases isBody : p.kind = .code
      · obtain ⟨body, rfl⟩ := Payload.kind_eq_code_iff.mp isBody
        refine canonical_clip_body announced fun n _ a ha => ?_
        obtain ⟨bytes, small, written⟩ := CodeBody.exists_written_of_mem h short ha
        exact ih a ha written small
      · exact canonical_clip_of_flat announced typed isBody legal h short

/-! ## Depths of what is read -/

theorem Payload.depth_le_of_typed {levels : Nat} {Nested : Attribute → Prop} {p : Payload}
    (h : p.TypedWith levels Nested) (nested : ∀ a, Nested a → a.payload.depth + 1 ≤ levels) :
    p.depth ≤ levels := by
  by_cases isBody : p.kind = .code
  · obtain ⟨body, rfl⟩ := kind_eq_code_iff.mp isBody
    obtain ⟨room, inner⟩ := h
    obtain ⟨n, rfl⟩ := Nat.exists_eq_add_one.mpr room
    refine Nat.succ_le_succ (CodeBody.depth_le_iff.mpr fun a ha => ?_)
    exact Nat.le_of_succ_le_succ (nested a (inner a ha))
  · exact ((typedWith_iff_of_flat (kind_ne_raw_of_typed h) isBody).mp h).2

theorem Attribute.depth_le_of_canonicalWith {pool : Pool} {levels : Nat} {Nested : Attribute → Prop}
    {a : Attribute} (h : a.CanonicalWith pool (Payload.TypedWith levels Nested))
    (nested : ∀ b, Nested b → b.payload.depth + 1 ≤ levels) : a.payload.depth ≤ levels := by
  obtain ⟨index, p⟩ := a
  by_cases raw : p.kind = .raw
  · cases p with
    | raw bytes => exact Nat.zero_le levels
    | _ => cases raw
  · exact Payload.depth_le_of_typed ((canonicalWith_iff_of_kind raw).mp h).2 nested

theorem Attribute.depth_le_of_canonical {pool : Pool} {levels : Nat} {a : Attribute}
    (h : a.Canonical pool levels) : a.payload.depth ≤ levels := by
  induction levels generalizing a with
  | zero => exact depth_le_of_canonicalWith h fun _ impossible => impossible.elim
  | succ levels ih => exact depth_le_of_canonicalWith h fun b hb => Nat.succ_le_succ (ih hb)

/-! ## Reading what is clipped -/

/-- A proper attribute that was written is read with what exceeds the limit on nesting clipped off,
and no attribute that is read exceeds the limit, whatever the input. -/
theorem Attribute.read_clips (pool : Pool) :
    (∀ (a : Attribute) (bs : Bytes), a.payload.size < 0x100000000 → Emits a.write bs →
      a.Proper pool → ∀ (rest : Bytes) (notices : Array Notice), ∃ notices',
        Attribute.read pool maxNesting ⟨bs ++ rest, notices⟩ =
          .ok (a.clip maxNesting) ⟨rest, notices'⟩) ∧
    ∀ (s : Reading) (a : Attribute) (s' : Reading),
      Attribute.read pool maxNesting s = .ok a s' → a.payload.depth ≤ maxNesting := by
  constructor
  · intro a bs small written proper rest notices
    have short : a.Short := fun body emitted => by rwa [Payload.size_of_emits emitted]
    obtain ⟨body, fits, emitted, rfl⟩ := short_and_emits_iff.mp ⟨short, written⟩
    -- the clipped attribute has the same bytes, and it is the one that they are read as
    have canonical : (a.clip maxNesting).Canonical pool maxNesting :=
      canonical_clip proper emitted fits
    have stored := (short_and_emits_iff (a := a.clip maxNesting)).mpr
      ⟨body, fits, Payload.emits_clip emitted fits, rfl⟩
    obtain ⟨⟨_, notices'⟩, run, rfl⟩ := (Attribute.reads pool maxNesting).complete
      (s := ⟨_ ++ rest, notices⟩) ⟨canonical, stored⟩ rfl
    exact ⟨notices', run⟩
  · intro s a s' run
    obtain ⟨_, ⟨canonical, -⟩, -⟩ := (Attribute.reads pool maxNesting).sound run
    exact depth_le_of_canonical canonical

/-- So many arrays, one in the other, around a string. -/
def nestedArrays : Nat → ElementValue
  | 0 => .string 1
  | n + 1 => .array [nestedArrays n]

/-- The bytes of the arrays. -/
def nestedArraysBytes : Nat → Bytes
  | 0 => [0x73, 0x00, 0x01]
  | n + 1 => 0x5B :: (Bytes.ofWord16 1 ++ nestedArraysBytes n)

theorem emits_nestedArrays (n : Nat) : Emits (nestedArrays n).write (nestedArraysBytes n) := by
  induction n with
  | zero => rfl
  | succ n ih =>
      have single : Series (fun v => Emits (ElementValue.write v)) [nestedArrays n]
          (nestedArraysBytes n) :=
        Series.cons_iff.mpr ⟨_, [], ih, .nil, (List.append_nil _).symm⟩
      exact ElementValue.emits_write_iff.mpr
        ⟨_, emits_table_iff.mpr ⟨Nat.one_lt_succ_succ _, _, single, rfl⟩, rfl⟩

theorem length_nestedArraysBytes (n : Nat) : (nestedArraysBytes n).length = 3 * n + 3 := by
  induction n with
  | zero => rfl
  | succ n ih =>
      rw [nestedArraysBytes, List.length_cons, List.length_append, Bytes.length_ofWord16, ih]
      omega

theorem height_nestedArrays (n : Nat) : (nestedArrays n).height = n := by
  induction n with
  | zero => rfl
  | succ n ih =>
      show max (nestedArrays n).height 0 + 1 = n + 1
      rw [ih, Nat.max_zero]

theorem legal_nestedArrays (n : Nat) : (nestedArrays n).Legal := by
  induction n with
  | zero => trivial
  | succ n ih => exact ⟨ih, trivial⟩

/-- One array more than can be read. -/
theorem Attribute.read_clips_nestedArrays :
    ∃ notices, Attribute.read ⟨#[.utf8 "AnnotationDefault"]⟩ maxNesting
      ⟨[0x00, 0x01, 0x00, 0x00, 0x00, 0xC6] ++ nestedArraysBytes 65 ++ [0xFF], #[]⟩ =
        .ok ⟨1, .raw (nestedArraysBytes 65)⟩ ⟨[0xFF], notices⟩ := by
  have emitted : Emits (Payload.annotationDefault (nestedArrays 65)).write (nestedArraysBytes 65) :=
    emits_nestedArrays 65
  have deep : maxNesting < (Payload.annotationDefault (nestedArrays 65)).depth :=
    Nat.lt_of_lt_of_eq (by decide) (height_nestedArrays 65).symm
  have small : (nestedArraysBytes 65).length < 0x100000000 := by
    rw [length_nestedArraysBytes]
    decide
  have length : sizeWord (nestedArraysBytes 65) = 0xC6 := by
    rw [sizeWord, length_nestedArraysBytes]
    rfl
  have written := (short_and_emits_iff (a := ⟨1, .annotationDefault (nestedArrays 65)⟩)).mpr
    ⟨_, small, emitted, rfl⟩
  rw [length] at written
  have named : Pool.attributeName? ⟨#[.utf8 "AnnotationDefault"]⟩ 1 = some .annotationDefault := rfl
  have proper : Attribute.Proper ⟨#[.utf8 "AnnotationDefault"]⟩
      ⟨1, .annotationDefault (nestedArrays 65)⟩ :=
    .typed named (by decide) rfl (legal_nestedArrays 65) fun a ha => absurd ha List.not_mem_nil
  have clipped : Attribute.clip maxNesting ⟨1, .annotationDefault (nestedArrays 65)⟩ =
      ⟨1, .raw (nestedArraysBytes 65)⟩ := by
    rw [clip, Payload.clip_of_lt (by decide) deep, Payload.encoded_of_emits emitted]
  rw [Payload.size_of_emits emitted] at small
  rw [← clipped]
  exact (read_clips _).1 ⟨1, .annotationDefault (nestedArrays 65)⟩ _ small written.2 proper
    [0xFF] #[]

end JvmClass
