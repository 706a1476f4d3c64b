import JvmClass.Proofs.Annotation.Reading
import JvmClass.Proofs.Attribute.Canonical

/-!
# JvmClass.Proofs.Attribute.Reading — attributes are read from what is written.

`Attribute.read` takes exactly the bytes that `Attribute.write` emits for canonical attributes.
The key is `contained`: a payload that cannot be read from all of its bytes is kept as these bytes,
and writing them again gives the same bytes.  So every sequence of bytes is the payload of exactly
one canonical attribute of a given name.
-/

namespace JvmClass

open Writer

/-! ## Tables of classes and handlers -/

theorem InnerClass.reads : Reads InnerClass.read fun c bs => Emits c.write bs := by
  refine ((((Reads.word16.map InnerClass.mk).seq .word16).seq .word16).seq
    (Reads.word16.map Flags.mk)).congr fun c bs => ?_
  simp only [InnerClass.emits_write_iff, exists_and_left, exists_eq_left]
  constructor
  · intro taken
    rcases taken with ⟨_, _, _, ⟨_, _, _, inner, rfl, rfl⟩, _, ⟨_, rfl, rfl⟩, rfl, rfl⟩
    obtain ⟨_, _, _, ⟨_, rfl, rfl⟩, rfl, rfl⟩ := inner
    simp only [List.append_assoc]
  · rintro rfl
    refine ⟨_, _, _, ⟨_, _, _, ⟨_, _, _, ⟨_, rfl, rfl⟩, rfl, rfl⟩, rfl, rfl⟩, _, ⟨_, rfl, rfl⟩, rfl,
      ?_⟩
    simp only [List.append_assoc]

theorem Handler.reads : Reads Handler.read fun h bs => Emits h.write bs := by
  refine ((((Reads.word16.map Handler.mk).seq .word16).seq .word16).seq .word16).congr
    fun h bs => ?_
  simp only [Handler.emits_write_iff, exists_and_left, exists_eq_left]
  constructor
  · intro taken
    rcases taken with ⟨_, _, _, ⟨_, _, _, inner, rfl, rfl⟩, rfl, rfl⟩
    obtain ⟨_, _, _, ⟨_, rfl, rfl⟩, rfl, rfl⟩ := inner
    simp only [List.append_assoc]
  · rintro rfl
    refine ⟨_, _, _, ⟨_, _, _, ⟨_, _, _, ⟨_, rfl, rfl⟩, rfl, rfl⟩, rfl, rfl⟩, rfl, ?_⟩
    simp only [List.append_assoc]

/-! ## Bodies -/

/-- A body is read from what is written for one whose attributes can be read. -/
theorem CodeBody.reads_readWith {element : Reader Attribute} {P : Attribute → Prop}
    (h : Reads element fun a bs => P a ∧ Emits a.write bs) :
    Reads (CodeBody.readWith element)
      fun b bs => (∀ a ∈ b.attributes, P a) ∧ Emits b.write bs := by
  refine (Reads.word16.lift.bind fun maxStack => Reads.word16.lift.bind fun maxLocals =>
    Reads.word32.lift.bind fun size => (Reads.take size.toNat).lift.bind fun code =>
    (Reads.table16 Handler.reads).lift.bind fun handlers => (Reads.readerTable16 h).bind
    fun attributes => Reads.pure _).congr fun b bs => ?_
  simp only [exists_and_left, exists_eq_left, exists_eq_right_right', and_assoc, List.append_nil]
  rw [CodeBody.emits_write_iff]
  constructor
  · intro taken
    rcases taken with ⟨maxStack, _, ⟨maxLocals, _, ⟨size, _, ⟨code, fits, _, tables, rfl⟩, rfl⟩,
      rfl⟩, rfl⟩
    obtain ⟨handlers, x, hx, y, ⟨attributes, hy, rfl⟩, rfl⟩ := tables
    obtain ⟨all, table⟩ := Table.and_iff.mp hy
    refine ⟨all, x, y, ?_, hx, table, ?_⟩
    · show code.length < _
      rw [fits]
      exact size.toNat_lt
    · show _ = .ofWord16 maxStack ++ (.ofWord16 maxLocals ++
        (.ofWord32 (.ofNat code.length) ++ (code ++ (x ++ y))))
      rw [fits, UInt32.ofNat_toNat]
  · obtain ⟨maxStack, maxLocals, code, handlers, attributes⟩ := b
    intro layout
    rcases layout with ⟨all, x, y, short, hx, hy, rfl⟩
    refine ⟨_, _, ⟨_, _, ⟨.ofNat code.length, _, ⟨code, ?_, _, ?_, rfl⟩, rfl⟩, rfl⟩, rfl⟩
    · exact (UInt32.toNat_ofNat_of_lt short).symm
    · exact ⟨handlers, x, hx, y, ⟨attributes, Table.and_iff.mpr ⟨all, hy⟩, rfl⟩, rfl⟩

/-! ## Payloads -/

/-- The payloads of one kind that can be read with this many levels left, as they are written. -/
def Payload.Written (levels : Nat) (Nested : Attribute → Prop) (kind : PayloadKind) (p : Payload)
    (bs : Bytes) : Prop :=
  p.kind = kind ∧ p.TypedWith levels Nested ∧ p.ShortInside ∧ Emits p.write bs

/-- A payload made up of one part, given that its kind has no other form. -/
theorem Payload.reads_of_part {σ α : Type} [Source σ] {r : EStateM ReadError σ α}
    {R : α → Bytes → Prop} {levels : Nat} {Nested : Attribute → Prop} {kind : PayloadKind}
    {f : α → Payload} (h : Reads r R) (only : ∀ p : Payload, p.kind = kind ↔ ∃ a, f a = p)
    (written : ∀ a bs, R a bs ↔
      (f a).TypedWith levels Nested ∧ (f a).ShortInside ∧ Emits (f a).write bs) :
    Reads (f <$> r) (Payload.Written levels Nested kind) := by
  refine (h.map f).congr fun p bs => ?_
  rw [Payload.Written, only]
  constructor
  · rintro ⟨a, ha, rfl⟩
    exact ⟨⟨a, rfl⟩, (written a bs).mp ha⟩
  · rintro ⟨⟨a, rfl⟩, ha⟩
    exact ⟨a, (written a bs).mpr ha, rfl⟩

/-- Payloads of each kind are read from what is written for them. -/
theorem Payload.reads_readWith {levels : Nat} {body : Reader CodeBody} {Nested : Attribute → Prop}
    (h : Reads body fun b bs =>
      (0 < levels ∧ ∀ a ∈ b.attributes, Nested a ∧ a.Short) ∧ Emits b.write bs)
    {kind : PayloadKind} (typed : kind ≠ .raw) :
    Reads (Payload.readWith levels body kind) (Payload.Written levels Nested kind) := by
  cases kind with
  | raw => exact absurd rfl typed
  | constantValue | nestHost =>
      refine (reads_of_part .word16 (fun p => ?_) fun w bs => ?_).lift
      · cases p <;> simp [Payload.kind]
      · exact ⟨fun same => ⟨trivial, trivial, emits_word16_iff.mpr same⟩,
          fun h => emits_word16_iff.mp h.2.2⟩
  | nestMembers | exceptions =>
      refine (reads_of_part (.table16 .word16) (fun p => ?_) fun table bs => ?_).lift
      · cases p <;> simp [Payload.kind]
      · exact ⟨fun h => ⟨trivial, trivial, emits_writeIndices_iff.mpr h⟩,
          fun h => emits_writeIndices_iff.mp h.2.2⟩
  | innerClasses =>
      refine (reads_of_part (.table16 InnerClass.reads) (fun p => ?_) fun table bs => ?_).lift
      · cases p <;> simp [Payload.kind]
      · exact ⟨fun h => ⟨trivial, trivial, emits_table_iff.mpr h⟩,
          fun h => emits_table_iff.mp h.2.2⟩
  | annotationDefault =>
      refine (reads_of_part (ElementValue.reads levels) (fun p => ?_) fun value bs => ?_).lift
      · cases p <;> simp [Payload.kind]
      · exact ⟨fun h => ⟨h.1, trivial, h.2⟩, fun h => ⟨h.1, h.2.2⟩⟩
  | annotations =>
      refine (reads_of_part (.table16 (AnnotationNode.reads levels)) (fun p => ?_)
        fun list bs => ?_).lift
      · cases p <;> simp [Payload.kind]
      · rw [Table.and_iff]
        exact ⟨fun h => ⟨h.1, trivial, emits_table_iff.mpr h.2⟩,
          fun h => ⟨h.1, emits_table_iff.mp h.2.2⟩⟩
  | typeAnnotations =>
      refine (reads_of_part (.table16 (TypeAnnotationNode.reads levels)) (fun p => ?_)
        fun list bs => ?_).lift
      · cases p <;> simp [Payload.kind]
      · rw [Table.and_iff]
        exact ⟨fun h => ⟨h.1, trivial, emits_table_iff.mpr h.2⟩,
          fun h => ⟨h.1, emits_table_iff.mp h.2.2⟩⟩
  | parameterAnnotations =>
      have list : Reads (Decoder.table16 (AnnotationNode.read levels)) fun list bs =>
          (∀ a ∈ list, AnnotationNode.Fits levels a) ∧ Emits (AnnotationNode.writeTable list) bs :=
        (Reads.table16 (AnnotationNode.reads levels)).congr fun list bs => by
          rw [Table.and_iff]
          exact and_congr_right fun _ => emits_table_iff.symm
      refine (reads_of_part (.table8 list) (fun p => ?_) fun lists bs => ?_).lift
      · cases p <;> simp [Payload.kind]
      · rw [ShortTable.and_iff]
        exact ⟨fun h => ⟨h.1, trivial, emits_shortTable_iff.mpr h.2⟩,
          fun h => ⟨h.1, emits_shortTable_iff.mp h.2.2⟩⟩
  | enclosingMethod =>
      refine Reads.lift (((Reads.word16.map enclosingMethod).seq .word16).congr fun p bs => ?_)
      constructor
      · intro taken
        rcases taken with ⟨_, method, _, _, ⟨owner, rfl, rfl⟩, rfl, rfl, rfl⟩
        refine ⟨rfl, trivial, trivial, emits_bind_iff.mpr ?_⟩
        exact ⟨_, _, emits_word16_iff.mpr rfl, emits_word16_iff.mpr rfl, rfl⟩
      · rintro ⟨shaped, -, -, written⟩
        cases p <;> cases shaped
        obtain ⟨_, _, first, second, rfl⟩ := emits_bind_iff.mp written
        exact ⟨_, _, _, _, ⟨_, emits_word16_iff.mp first, rfl⟩, emits_word16_iff.mp second,
          rfl, rfl⟩
  | code =>
      refine reads_of_part h (fun p => ?_) fun b bs => ?_
      · cases p <;> simp [Payload.kind]
      · constructor
        · rintro ⟨⟨room, all⟩, written⟩
          exact ⟨⟨room, fun a ha => (all a ha).1⟩, fun a ha => (all a ha).2, written⟩
        · intro taken
          rcases taken with ⟨⟨room, nested⟩, short, written⟩
          exact ⟨⟨room, fun a ha => ⟨nested a ha, short a ha⟩⟩, written⟩

/-- What is kept of a payload: the value that all of the bytes stand for, and the bytes themselves
if there is none.  The input behind the payload is not touched. -/
theorem Payload.contained_reads {name : AttributeName} {bytes : Bytes} {payload : Reader Payload}
    {T : Payload → Bytes → Prop} (h : Reads payload T) :
    Reads (contained name bytes payload) fun p bs =>
      bs = [] ∧ (T p bytes ∨ p = .raw bytes ∧ ∀ q, ¬ T q bytes) := by
  intro s p rest
  -- a reader that can take all of the bytes does so, whatever the notices are
  have full : ∀ q, T q bytes → ∃ s', payload ⟨bytes, s.notices⟩ = .ok q s' ∧ s'.rest = [] :=
    fun q hq => h.complete hq (List.append_nil bytes).symm
  show (∃ s', contained name bytes payload s = .ok p s' ∧ s'.rest = rest) ↔
    ∃ bs, (bs = [] ∧ _) ∧ s.rest = bs ++ rest
  simp only [and_assoc, exists_eq_left, List.nil_append]
  unfold contained
  cases run : payload ⟨bytes, s.notices⟩ with
  | error cause s' =>
      have none : ∀ q, ¬ T q bytes := by
        intro q hq
        obtain ⟨_, success, -⟩ := full q hq
        rw [run] at success
        cases success
      constructor
      · rintro ⟨_, kept, rfl⟩
        cases kept
        exact ⟨.inr ⟨rfl, none⟩, rfl⟩
      · rintro ⟨typed | ⟨rfl, -⟩, rfl⟩
        · exact absurd typed (none p)
        · exact ⟨_, rfl, rfl⟩
  | ok q s' =>
      obtain ⟨x, hx, taken⟩ := h.sound run
      obtain ⟨left, notices⟩ := s'
      cases left with
      | nil =>
          have all : T q bytes := by
            rw [show bytes = x ++ [] from taken, List.append_nil]
            exact hx
          constructor
          · rintro ⟨_, kept, rfl⟩
            cases kept
            exact ⟨.inl all, rfl⟩
          · rintro ⟨typed | ⟨rfl, none⟩, rfl⟩
            · obtain ⟨_, success, -⟩ := full p typed
              rw [run] at success
              cases success
              exact ⟨_, rfl, rfl⟩
            · exact absurd all (none q)
      | cons b left =>
          have none : ∀ q', ¬ T q' bytes := by
            intro q' hq'
            obtain ⟨_, success, empty⟩ := full q' hq'
            rw [run] at success
            cases success
            cases empty
          constructor
          · rintro ⟨_, kept, rfl⟩
            cases kept
            exact ⟨.inr ⟨rfl, none⟩, rfl⟩
          · rintro ⟨typed | ⟨rfl, -⟩, rfl⟩
            · exact absurd typed (none p)
            · exact ⟨_, rfl, rfl⟩

/-! ## Attributes -/

theorem Attribute.reads_readHeader :
    Reads readHeader fun h bs => h.2.length < 0x100000000 ∧
      bs = .ofWord16 h.1 ++ (.ofWord32 (sizeWord h.2) ++ h.2) := by
  refine (Reads.word16.bind fun name => Reads.word32.bind fun length =>
    (Reads.take length.toNat).bind fun bytes => Reads.pure (name, bytes)).congr fun h bs => ?_
  simp only [exists_and_left, exists_eq_left, and_assoc, List.append_nil]
  constructor
  · intro taken
    rcases taken with ⟨name, _, ⟨length, bytes, ⟨_, fits, rfl, rfl⟩, rfl⟩, rfl⟩
    constructor
    · rw [fits]
      exact length.toNat_lt
    · rw [sizeWord, fits, UInt32.ofNat_toNat]
  · intro layout
    rcases layout with ⟨short, rfl⟩
    refine ⟨h.1, _, ⟨sizeWord h.2, h.2, ⟨h.2, ?_, rfl, rfl⟩, rfl⟩, rfl⟩
    exact (toNat_sizeWord short).symm

section Behind

variable {pool : Pool} {levels : Nat} {Nested : Attribute → Prop} {index : UInt16} {bytes : Bytes}

/-- The canonical attribute that a header stands for, with no bytes behind the header. -/
def Attribute.Settled (pool : Pool) (levels : Nat) (Nested : Attribute → Prop) (index : UInt16)
    (bytes : Bytes) (a : Attribute) (bs : Bytes) : Prop :=
  bs = [] ∧ a.name = index ∧
    (a.CanonicalWith pool (Payload.TypedWith levels Nested) ∧ Emits a.payload.write bytes)

theorem Attribute.settled_iff {p : Payload} {bs : Bytes} :
    Attribute.Settled pool levels Nested index bytes ⟨index, p⟩ bs ↔ bs = [] ∧
      ((pool.Announces index p.kind ∧ p.TypedWith levels Nested ∧ Emits p.write bytes) ∨
        p = .raw bytes ∧ ∀ q, ¬ (pool.Announces index q.kind ∧ Payload.TypedWith levels Nested q ∧
          Emits q.write bytes)) := by
  have typed : ∀ q, Payload.TypedWith levels Nested q → q.kind ≠ .raw :=
    fun _ => Payload.kind_ne_raw_of_typed
  rw [← Attribute.canonicalWith_and_emits_iff typed]
  exact and_congr_right fun _ => and_iff_right rfl

/-- Under a name that announces nothing, bytes stand for themselves. -/
theorem Attribute.reads_kept (none : ∀ kind, ¬ pool.Announces index kind) :
    Reads (pure ⟨index, .raw bytes⟩ : Reader Attribute)
      (Attribute.Settled pool levels Nested index bytes) := by
  refine (Reads.pure _).congr fun a bs => ?_
  constructor
  · rintro ⟨rfl, rfl⟩
    exact Attribute.settled_iff.mpr ⟨rfl, .inr ⟨rfl, fun q h => none _ h.1⟩⟩
  · obtain ⟨i, p⟩ := a
    rintro ⟨empty, rfl, settled⟩
    obtain ⟨-, ⟨announced, -⟩ | ⟨rfl, -⟩⟩ := Attribute.settled_iff.mp ⟨empty, rfl, settled⟩
    · exact absurd announced (none _)
    · exact ⟨rfl, empty⟩

/-- Under a name that announces a kind, bytes stand for a payload of that kind if they can. -/
theorem Attribute.reads_contained {name : AttributeName} {kind : PayloadKind}
    {payload : Reader Payload} (h : Reads payload (Payload.Written levels Nested kind))
    (announced : ∀ k, pool.Announces index k ↔ kind = k) (short : bytes.length < 0x100000000) :
    Reads (Attribute.mk index <$> Payload.contained name bytes payload)
      (Attribute.Settled pool levels Nested index bytes) := by
  have same : ∀ q, Payload.Written levels Nested kind q bytes ↔
      pool.Announces index q.kind ∧ q.TypedWith levels Nested ∧ Emits q.write bytes := by
    intro q
    rw [announced, eq_comm (a := kind)]
    constructor
    · exact fun h => ⟨h.1, h.2.1, h.2.2.2⟩
    · exact fun h => ⟨h.1, h.2.1, Payload.shortInside_of_emits h.2.2 short, h.2.2⟩
  refine ((Payload.contained_reads h).map (Attribute.mk index)).congr fun a bs => ?_
  simp only [same]
  constructor
  · rintro ⟨p, settled, rfl⟩
    exact Attribute.settled_iff.mpr settled
  · obtain ⟨i, p⟩ := a
    intro settled
    obtain rfl : i = index := settled.2.1
    exact ⟨p, Attribute.settled_iff.mp settled, rfl⟩

end Behind

/-- With payloads read from what is written for them, attributes are too. -/
theorem Attribute.reads_readWith {pool : Pool} {payload : PayloadKind → Reader Payload}
    {levels : Nat} {Nested : Attribute → Prop}
    (h : ∀ kind, kind ≠ .raw → Reads (payload kind) (Payload.Written levels Nested kind)) :
    Reads (Attribute.readWith pool payload) fun a bs =>
      a.CanonicalWith pool (Payload.TypedWith levels Nested) ∧ a.Short ∧ Emits a.write bs := by
  refine (Reads.bind_of (S := fun header => Attribute.Settled pool levels Nested header.1 header.2)
    Attribute.reads_readHeader.lift ?_).congr ?_
  · -- behind the header nothing more is taken: name and bytes settle the payload
    rintro ⟨index, bytes⟩ _ ⟨short, -⟩
    dsimp only
    cases named : pool.attributeName? index with
    | none =>
        refine Attribute.reads_kept fun kind => ?_
        rintro ⟨name, hit, -⟩
        rw [named] at hit
        cases hit
    | some name =>
        have announces : ∀ kind, pool.Announces index kind ↔ name.payloadKind? = some kind :=
          fun kind => Pool.announces_iff named
        dsimp only
        cases announced : name.payloadKind? with
        | none =>
            refine Attribute.reads_kept fun kind => ?_
            rw [announces, announced]
            exact nofun
        | some kind =>
            have typed : kind ≠ .raw := by
              rintro rfl
              exact name.payloadKind?_ne_raw announced
            refine Attribute.reads_contained (h kind typed) (fun k => ?_) short
            rw [announces, announced, Option.some.injEq]
  · rintro ⟨index, p⟩ bs
    rw [Attribute.short_and_emits_iff]
    constructor
    · intro taken
      rcases taken with ⟨⟨_, bytes⟩, _, _, ⟨short, rfl⟩, ⟨rfl, rfl, canonical, written⟩, rfl⟩
      exact ⟨canonical, bytes, short, written, List.append_nil _⟩
    · intro taken
      rcases taken with ⟨canonical, bytes, short, written, rfl⟩
      exact ⟨⟨index, bytes⟩, _, [], ⟨short, rfl⟩, ⟨rfl, rfl, canonical, written⟩,
        (List.append_nil _).symm⟩

/-- Attributes are read from what is written for canonical ones. -/
theorem Attribute.reads (pool : Pool) (levels : Nat) :
    Reads (Attribute.read pool levels) fun a bs =>
      a.Canonical pool levels ∧ a.Short ∧ Emits a.write bs := by
  induction levels with
  | zero =>
      have body : Reads (throw .nestingTooDeep : Reader CodeBody) fun b bs =>
          (0 < 0 ∧ ∀ a ∈ b.attributes, False ∧ a.Short) ∧ Emits b.write bs :=
        (Reads.fail .nestingTooDeep).congr fun b bs =>
          ⟨False.elim, fun h => Nat.lt_irrefl 0 h.1.1⟩
      exact Attribute.reads_readWith fun kind typed => Payload.reads_readWith body typed
  | succ levels ih =>
      have element : Reads (Attribute.read pool levels) fun a bs =>
          (a.Canonical pool levels ∧ a.Short) ∧ Emits a.write bs :=
        ih.congr fun a bs => and_assoc.symm
      have body : Reads (CodeBody.readWith (Attribute.read pool levels)) fun b bs =>
          (0 < levels + 1 ∧ ∀ a ∈ b.attributes, a.Canonical pool levels ∧ a.Short) ∧
            Emits b.write bs :=
        (CodeBody.reads_readWith element).congr fun b bs => by
          rw [and_iff_right (Nat.succ_pos levels)]
      exact Attribute.reads_readWith fun kind typed => Payload.reads_readWith body typed

/-- Bodies are read from what is written for those whose attributes are canonical. -/
theorem CodeBody.reads (pool : Pool) (levels : Nat) :
    Reads (CodeBody.read pool levels) fun b bs =>
      (∀ a ∈ b.attributes, a.Canonical pool levels ∧ a.Short) ∧ Emits b.write bs :=
  CodeBody.reads_readWith ((Attribute.reads pool levels).congr fun _ _ => and_assoc.symm)

end JvmClass
