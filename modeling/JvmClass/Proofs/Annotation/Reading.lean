import JvmClass.Proofs.Annotation.Emission
import JvmClass.Proofs.Annotation.Fits
import JvmClass.Proofs.Bytes.Reading

/-!
# JvmClass.Proofs.Annotation.Reading — annotations are read from what is written.

Each reader of an annotation's parts takes exactly the bytes that the writer emits for a part that
fits the levels left.  Two facts are in this: what is read is what would be written, and what is
written for a tree that fits is read as that tree.
-/

namespace JvmClass

open Writer

/-! ## Values and annotations -/

/-- The bytes of a pair, given those of values. -/
def ElementPair.Layout (V : ElementValue → Bytes → Prop) (p : ElementPair) (bs : Bytes) : Prop :=
  ∃ body, V p.value body ∧ bs = .ofWord16 p.name ++ body

/-- The bytes of an annotation, given those of values. -/
def AnnotationNode.Layout (V : ElementValue → Bytes → Prop) (a : AnnotationNode) (bs : Bytes) :
    Prop :=
  ∃ body, Table (ElementPair.Layout V) a.pairs body ∧ bs = .ofWord16 a.type ++ body

theorem ElementPair.reads_readWith {value : Decoder ElementValue} {V : ElementValue → Bytes → Prop}
    (h : Reads value V) : Reads (ElementPair.readWith value) (ElementPair.Layout V) := by
  refine ((Reads.word16.map ElementPair.mk).seq h).congr fun p bs => ?_
  constructor
  · intro taken
    rcases taken with ⟨_, value, _, body, ⟨name, rfl, rfl⟩, hv, rfl, rfl⟩
    exact ⟨body, hv, rfl⟩
  · obtain ⟨name, value⟩ := p
    rintro ⟨body, hv, rfl⟩
    exact ⟨_, _, _, body, ⟨_, rfl, rfl⟩, hv, rfl, rfl⟩

theorem AnnotationNode.reads_readWith {value : Decoder ElementValue}
    {V : ElementValue → Bytes → Prop} (h : Reads value V) :
    Reads (AnnotationNode.readWith value) (AnnotationNode.Layout V) := by
  have pairs := Reads.table16 (ElementPair.reads_readWith h)
  refine ((Reads.word16.map AnnotationNode.mk).seq pairs).congr fun a bs => ?_
  constructor
  · intro taken
    rcases taken with ⟨_, pairs, _, body, ⟨type, rfl, rfl⟩, hp, rfl, rfl⟩
    exact ⟨body, hp, rfl⟩
  · obtain ⟨type, pairs⟩ := a
    rintro ⟨body, hp, rfl⟩
    exact ⟨_, _, _, body, ⟨_, rfl, rfl⟩, hp, rfl, rfl⟩

/-- The bytes of the values that fit, as they are written. -/
def ElementValue.Written (levels : Nat) (v : ElementValue) (bs : Bytes) : Prop :=
  v.Fits levels ∧ Emits v.write bs

/-- An annotation made up of values that fit is an annotation that fits. -/
theorem AnnotationNode.layout_written_iff {levels : Nat} {a : AnnotationNode} {bs : Bytes} :
    AnnotationNode.Layout (ElementValue.Written levels) a bs ↔
      a.Fits levels ∧ Emits a.write bs := by
  have pair : ∀ p ∈ a.pairs, ∀ x, ElementPair.Layout (ElementValue.Written levels) p x ↔
      p.value.Fits levels ∧ Emits p.write x := by
    intro p _ x
    rw [ElementPair.emits_write_iff]
    constructor
    · intro h
      rcases h with ⟨body, ⟨fits, written⟩, rfl⟩
      exact ⟨fits, body, written, rfl⟩
    · intro h
      rcases h with ⟨fits, body, written, rfl⟩
      exact ⟨body, ⟨fits, written⟩, rfl⟩
  rw [AnnotationNode.emits_write_iff, AnnotationNode.fits_iff, AnnotationNode.Layout]
  simp only [Table.congr pair, Table.and_iff]
  constructor
  · intro h
    rcases h with ⟨body, ⟨fits, written⟩, rfl⟩
    exact ⟨fits, body, written, rfl⟩
  · intro h
    rcases h with ⟨fits, body, written, rfl⟩
    exact ⟨body, ⟨fits, written⟩, rfl⟩

/-- The tags that announce a shape. -/
def ElementShape.tags : ElementShape → List UInt8
  | .primitive => primitiveTags
  | .string => [0x73]
  | .enum => [0x65]
  | .classInfo => [0x63]
  | .nested => [0x40]
  | .array => [0x5B]

theorem ElementShape.mem_tags_of_ofTag? {tag : UInt8} {shape : ElementShape}
    (h : ofTag? tag = some shape) : tag ∈ shape.tags := by
  unfold ofTag? at h
  split at h
  · cases h
    assumption
  repeat
    split at h
    · cases h
      exact List.mem_singleton.mpr ‹_›
  cases h

/-- The bytes behind a tag, for the values of one shape that carry this tag and fit. -/
def ElementValue.Behind (levels : Nat) (tag : UInt8) (shape : ElementShape) (v : ElementValue)
    (bs : Bytes) : Prop :=
  v.tag = tag ∧ v.shape = shape ∧ v.Fits levels ∧ Emits v.writeContents bs

/-- What a value holds beside further values is read without regard to the levels. -/
theorem ElementValue.reads_flat {levels : Nat} {tag : UInt8} {shape : ElementShape}
    {below : Option (Decoder ElementValue)} (tagged : tag ∈ shape.tags)
    (notNested : shape ≠ .nested) (notArray : shape ≠ .array) :
    Reads (readShape tag below shape) (Behind levels tag shape) := by
  cases shape with
  | nested => exact absurd rfl notNested
  | array => exact absurd rfl notArray
  | primitive =>
      refine (Reads.word16.map (primitive tag)).congr fun v bs => ?_
      constructor
      · rintro ⟨constant, rfl, rfl⟩
        exact ⟨rfl, rfl, ⟨tagged, Nat.zero_le _⟩, emits_word16_iff.mpr rfl⟩
      · intro h
        rcases h with ⟨rfl, shaped, -, written⟩
        cases v <;> cases shaped
        exact ⟨_, emits_word16_iff.mp written, rfl⟩
  | string | classInfo =>
      cases List.mem_singleton.mp tagged
      refine (Reads.word16.map _).congr fun v bs => ?_
      constructor
      · rintro ⟨constant, rfl, rfl⟩
        exact ⟨rfl, rfl, ⟨trivial, Nat.zero_le _⟩, emits_word16_iff.mpr rfl⟩
      · rintro ⟨-, shaped, -, written⟩
        cases v <;> cases shaped
        exact ⟨_, emits_word16_iff.mp written, rfl⟩
  | enum =>
      cases List.mem_singleton.mp tagged
      refine ((Reads.word16.map enum).seq .word16).congr fun v bs => ?_
      constructor
      · intro h
        rcases h with ⟨_, constant, _, _, ⟨type, rfl, rfl⟩, rfl, rfl, rfl⟩
        refine ⟨rfl, rfl, ⟨trivial, Nat.zero_le _⟩, emits_bind_iff.mpr ?_⟩
        exact ⟨_, _, emits_word16_iff.mpr rfl, emits_word16_iff.mpr rfl, rfl⟩
      · rintro ⟨-, shaped, -, written⟩
        cases v <;> cases shaped
        obtain ⟨_, _, first, second, rfl⟩ := emits_bind_iff.mp written
        exact ⟨_, _, _, _, ⟨_, emits_word16_iff.mp first, rfl⟩, emits_word16_iff.mp second,
          rfl, rfl⟩

/-- Without a level left, neither an annotation nor an array is read. -/
theorem ElementValue.reads_readShape_zero {tag : UInt8} {shape : ElementShape}
    (tagged : tag ∈ shape.tags) : Reads (readShape tag none shape) (Behind 0 tag shape) := by
  by_cases nested : shape = .nested
  · subst nested
    refine (Reads.fail .nestingTooDeep).congr fun v bs => ⟨False.elim, ?_⟩
    intro h
    rcases h with ⟨-, shaped, ⟨-, height⟩, -⟩
    cases v <;> cases shaped
    cases height
  by_cases array : shape = .array
  · subst array
    refine (Reads.fail .nestingTooDeep).congr fun v bs => ⟨False.elim, ?_⟩
    intro h
    rcases h with ⟨-, shaped, ⟨-, height⟩, -⟩
    cases v <;> cases shaped
    cases height
  exact reads_flat tagged nested array

/-- With a level left, annotations and arrays are read with one level less. -/
theorem ElementValue.reads_readShape_succ {levels : Nat} {tag : UInt8} {shape : ElementShape}
    {value : Decoder ElementValue} (tagged : tag ∈ shape.tags)
    (h : Reads value (Written levels)) :
    Reads (readShape tag (some value) shape) (Behind (levels + 1) tag shape) := by
  by_cases isNested : shape = .nested
  · subst isNested
    cases List.mem_singleton.mp tagged
    refine ((AnnotationNode.reads_readWith h).map nested).congr fun v bs => ?_
    constructor
    · rintro ⟨a, layout, rfl⟩
      obtain ⟨fits, written⟩ := AnnotationNode.layout_written_iff.mp layout
      exact ⟨rfl, rfl, fits_nested_iff.mpr fits, written⟩
    · intro taken
      rcases taken with ⟨-, shaped, fits, written⟩
      cases v <;> cases shaped
      exact ⟨_, AnnotationNode.layout_written_iff.mpr ⟨fits_nested_iff.mp fits, written⟩, rfl⟩
  by_cases isArray : shape = .array
  · subst isArray
    cases List.mem_singleton.mp tagged
    refine ((Reads.table16 h).map array).congr fun v bs => ?_
    constructor
    · rintro ⟨values, table, rfl⟩
      obtain ⟨fits, written⟩ := Table.and_iff.mp table
      exact ⟨rfl, rfl, fits_array_iff.mpr fits, emits_table_iff.mpr written⟩
    · intro taken
      rcases taken with ⟨-, shaped, fits, written⟩
      cases v <;> cases shaped
      exact ⟨_, Table.and_iff.mpr ⟨fits_array_iff.mp fits, emits_table_iff.mp written⟩, rfl⟩
  exact reads_flat tagged isNested isArray

/-- A tag and what it announces make up a value. -/
theorem ElementValue.reads_readWith {levels : Nat} {below : Option (Decoder ElementValue)}
    (h : ∀ tag shape, tag ∈ ElementShape.tags shape →
      Reads (readShape tag below shape) (Behind levels tag shape)) :
    Reads (readWith below) (Written levels) := by
  unfold readWith
  refine (Reads.byte.bind
    (S := fun tag v bs => v.tag = tag ∧ v.Fits levels ∧ Emits v.writeContents bs)
    fun tag => ?_).congr fun v bs => ?_
  · -- a tag that announces no shape is none of a legal value
    cases announced : ElementShape.ofTag? tag with
    | none =>
        refine (Reads.fail _).congr fun v bs => ⟨False.elim, ?_⟩
        rintro ⟨rfl, fits, -⟩
        rw [ofTag?_of_legal fits.1] at announced
        cases announced
    | some shape =>
        refine (h tag shape (ElementShape.mem_tags_of_ofTag? announced)).congr fun v bs => ?_
        constructor
        · rintro ⟨rfl, -, fits, written⟩
          exact ⟨rfl, fits, written⟩
        · rintro ⟨rfl, fits, written⟩
          rw [ofTag?_of_legal fits.1] at announced
          exact ⟨rfl, Option.some.inj announced, fits, written⟩
  rw [Written, emits_write_iff]
  constructor
  · intro taken
    rcases taken with ⟨_, _, body, rfl, ⟨rfl, fits, written⟩, rfl⟩
    exact ⟨fits, body, written, rfl⟩
  · intro taken
    rcases taken with ⟨fits, body, written, rfl⟩
    exact ⟨_, _, body, rfl, ⟨rfl, fits, written⟩, rfl⟩

/-- Values are read from what is written for those that fit. -/
theorem ElementValue.reads (levels : Nat) : Reads (ElementValue.read levels) (Written levels) := by
  -- what stands below is read with one level less
  induction levels with
  | zero => exact reads_readWith fun _ _ => reads_readShape_zero
  | succ levels ih => exact reads_readWith fun _ _ tagged => reads_readShape_succ tagged ih

theorem AnnotationNode.reads (levels : Nat) :
    Reads (AnnotationNode.read levels) fun a bs => a.Fits levels ∧ Emits a.write bs :=
  (reads_readWith (ElementValue.reads levels)).congr fun _ _ => layout_written_iff

/-! ## Type annotations -/

theorem LocalRange.reads : Reads LocalRange.read fun r bs => Emits r.write bs := by
  refine (((Reads.word16.map LocalRange.mk).seq .word16).seq .word16).congr fun r bs => ?_
  simp only [LocalRange.write, emits_bind_iff, emits_word16_iff, exists_and_left, exists_eq_left]
  constructor
  · intro taken
    rcases taken with ⟨_, _, _, ⟨_, _, _, ⟨_, rfl, rfl⟩, rfl, rfl⟩, rfl, rfl⟩
    rw [List.append_assoc]
  · rintro rfl
    refine ⟨_, _, _, ⟨_, _, _, ⟨_, rfl, rfl⟩, rfl, rfl⟩, rfl, ?_⟩
    rw [List.append_assoc]

theorem PathStep.reads : Reads PathStep.read fun s bs => Emits s.write bs := by
  refine ((Reads.byte.map PathStep.mk).seq .byte).congr fun s bs => ?_
  simp only [PathStep.write, emits_bind_iff, emits_byte_iff, exists_and_left, exists_eq_left]
  constructor
  · intro taken
    rcases taken with ⟨_, _, _, ⟨_, rfl, rfl⟩, rfl, rfl⟩
    rfl
  · rintro rfl
    exact ⟨_, _, _, ⟨_, rfl, rfl⟩, rfl, rfl⟩

/-- A target with one field, given that its shape has no other form. -/
theorem Target.reads_of_field {α : Type} {d : Decoder α} {R : α → Bytes → Prop}
    {shape : TargetShape} {f : α → Target} (h : Reads d R)
    (written : ∀ a bs, R a bs ↔ Emits (f a).write bs)
    (only : ∀ t : Target, t.shape = shape ↔ ∃ a, f a = t) :
    Reads (f <$> d) fun t bs => t.shape = shape ∧ Emits t.write bs := by
  refine (h.map f).congr fun t bs => ?_
  rw [only]
  constructor
  · rintro ⟨a, ha, rfl⟩
    exact ⟨⟨a, rfl⟩, (written a bs).mp ha⟩
  · rintro ⟨⟨a, rfl⟩, ha⟩
    exact ⟨a, (written a bs).mpr ha, rfl⟩

/-- The targets of one shape are read from what is written for them. -/
theorem Target.reads (shape : TargetShape) :
    Reads (Target.read shape) fun t bs => t.shape = shape ∧ Emits t.write bs := by
  cases shape with
  | typeParameter | formalParameter =>
      refine reads_of_field .byte (fun _ _ => emits_byte_iff.symm) fun t => ?_
      cases t <;> simp [Target.shape]
  | supertype | throwsClause | handler | instruction =>
      refine reads_of_field .word16 (fun _ _ => emits_word16_iff.symm) fun t => ?_
      cases t <;> simp [Target.shape]
  | localVariable =>
      refine reads_of_field (.table16 LocalRange.reads) (fun _ _ => emits_table_iff.symm) ?_
      intro t
      cases t <;> simp [Target.shape]
  | empty =>
      refine (Reads.pure Target.empty).congr fun t bs => ?_
      constructor
      · rintro ⟨rfl, rfl⟩
        exact ⟨rfl, emits_pure_iff.mpr rfl⟩
      · rintro ⟨shaped, written⟩
        cases t <;> cases shaped
        exact ⟨rfl, emits_pure_iff.mp written⟩
  | typeParameterBound =>
      refine ((Reads.byte.map typeParameterBound).seq .byte).congr fun t bs => ?_
      constructor
      · intro h
        rcases h with ⟨_, bound, _, _, ⟨parameter, rfl, rfl⟩, rfl, rfl, rfl⟩
        exact ⟨rfl, emits_bind_iff.mpr ⟨_, _, emits_byte_iff.mpr rfl, emits_byte_iff.mpr rfl, rfl⟩⟩
      · rintro ⟨shaped, written⟩
        cases t <;> cases shaped
        obtain ⟨_, _, first, second, rfl⟩ := emits_bind_iff.mp written
        exact ⟨_, _, _, _, ⟨_, emits_byte_iff.mp first, rfl⟩, emits_byte_iff.mp second, rfl, rfl⟩
  | typeArgument =>
      refine ((Reads.word16.map typeArgument).seq .byte).congr fun t bs => ?_
      constructor
      · intro h
        rcases h with ⟨_, argument, _, _, ⟨offset, rfl, rfl⟩, rfl, rfl, rfl⟩
        refine ⟨rfl, emits_bind_iff.mpr ⟨_, _, ?_, emits_byte_iff.mpr rfl, rfl⟩⟩
        exact emits_word16_iff.mpr rfl
      · rintro ⟨shaped, written⟩
        cases t <;> cases shaped
        obtain ⟨_, _, first, second, rfl⟩ := emits_bind_iff.mp written
        exact ⟨_, _, _, _, ⟨_, emits_word16_iff.mp first, rfl⟩, emits_byte_iff.mp second, rfl, rfl⟩

/-- What stands behind the target type of a type annotation. -/
def TypeAnnotationNode.Behind (levels : Nat) (targetType : UInt8) (a : TypeAnnotationNode)
    (bs : Bytes) : Prop :=
  a.targetType = targetType ∧ a.Fits levels ∧ ∃ target path node, Emits a.target.write target ∧
    ShortTable (fun s => Emits (PathStep.write s)) a.path path ∧ Emits a.node.write node ∧
    bs = target ++ (path ++ node)

/-- The target type selects the shape of the target; the path and the annotation follow. -/
theorem TypeAnnotationNode.reads_behind {levels : Nat} {targetType : UInt8} {shape : TargetShape}
    (selected : TargetShape.ofType? targetType = some shape) :
    Reads (do
      let target ← Target.read shape
      let path ← Decoder.table8 PathStep.read
      let node ← AnnotationNode.read levels
      pure ⟨targetType, target, path, node⟩) (TypeAnnotationNode.Behind levels targetType) := by
  refine ((Target.reads shape).bind fun target => (Reads.table8 PathStep.reads).bind
    fun path => (AnnotationNode.reads levels).bind fun node => Reads.pure _).congr fun a bs => ?_
  unfold Behind
  simp only [exists_and_left, exists_eq_left, exists_eq_right_right', and_assoc, List.append_nil]
  constructor
  · intro taken
    rcases taken with ⟨target, shaped, x, ht, _, ⟨path, y, hp, z, ⟨node, fits, hn, rfl⟩, rfl⟩, rfl⟩
    -- the target was read in the shape that its type selects
    have agrees : TargetShape.ofType? targetType = some target.shape := by rw [selected, shaped]
    exact ⟨rfl, ⟨agrees, fits⟩, x, ht, y, hp, z, hn, rfl⟩
  · intro behind
    rcases behind with ⟨rfl, ⟨agrees, fits⟩, x, ht, y, hp, z, hn, rfl⟩
    have shaped : a.target.shape = shape := Option.some.inj (agrees.symm.trans selected)
    refine ⟨a.target, shaped, x, ht, _, ⟨a.path, y, hp, z, ?_, rfl⟩, rfl⟩
    exact ⟨a.node, fits, hn, rfl⟩

/-- Type annotations are read from what is written for those whose target type is right. -/
theorem TypeAnnotationNode.reads (levels : Nat) :
    Reads (TypeAnnotationNode.read levels) fun a bs => a.Fits levels ∧ Emits a.write bs := by
  unfold TypeAnnotationNode.read
  refine (Reads.byte.bind (S := TypeAnnotationNode.Behind levels)
    fun targetType => ?_).congr fun a bs => ?_
  · cases selected : TargetShape.ofType? targetType with
    | none =>
        refine (Reads.fail _).congr fun a bs => ⟨False.elim, ?_⟩
        rintro ⟨rfl, fits, -⟩
        rw [fits.1] at selected
        cases selected
    | some shape => exact reads_behind selected
  · rw [TypeAnnotationNode.emits_write_iff]
    constructor
    · intro taken
      rcases taken with ⟨_, _, _, rfl, ⟨rfl, fits, target, path, node, ht, hp, hn, rfl⟩, rfl⟩
      exact ⟨fits, target, path, node, ht, hp, hn, rfl⟩
    · intro written
      rcases written with ⟨fits, target, path, node, ht, hp, hn, rfl⟩
      exact ⟨_, _, _, rfl, ⟨rfl, fits, target, path, node, ht, hp, hn, rfl⟩, rfl⟩

end JvmClass
