import JvmClass.Proofs.ClassFile.Layout

/-!
# JvmClass.Proofs.ClassFile.Containment — what a payload can do to the class around it.

Nothing: the bytes of a payload settle that payload and no more.  Whatever is put in their place, be
it malformed, nested too deep or too short for what it announces, the class is read as before from
the same number of bytes, and only that payload differs (`ClassFile.read_of_payload`).

`ClassFile.readUpTo` tells where in the input an attribute starts: it reads everything that stands
before the attribute and stops there.
-/

namespace JvmClass

open Writer

/-! ## Readers that stop at an attribute -/

/-- The count of a table of attributes, and so many attributes. -/
def Attribute.readFirst (pool : Pool) (k : Nat) : Reader Unit := do
  let _ ← Reader.lift Decoder.word16
  let _ ← repeated (Attribute.read pool maxNesting) k
  pure ()

/-- The count of a table of members, and so many members. -/
def Member.readFirst (pool : Pool) (i : Nat) : Reader Unit := do
  let _ ← Reader.lift Decoder.word16
  let _ ← repeated (Member.read pool) i
  pure ()

/-- A member up to one of its attributes. -/
def Member.readUpTo (pool : Pool) (k : Nat) : Reader Unit := do
  let _ ← Reader.lift Decoder.word16
  let _ ← Reader.lift Decoder.word16
  let _ ← Reader.lift Decoder.word16
  Attribute.readFirst pool k

namespace ClassFile

/-- Everything before the fields. -/
def readFront : Reader Pool := do
  Reader.lift readMagic
  let _ ← Reader.lift Decoder.word16
  let _ ← Reader.lift Decoder.word16
  let pool ← Reader.lift Pool.read
  let _ ← Reader.lift Decoder.word16
  let _ ← Reader.lift Decoder.word16
  let _ ← Reader.lift Decoder.word16
  let _ ← Reader.lift (Decoder.table16 Decoder.word16)
  pure pool

/-- What stands between the interfaces and the attribute at a position among those of a location.
Attributes in bodies are not reached in this way. -/
def readWithin (pool : Pool) : (location : Location) → (position : Nat) → Reader Unit
  | .onField i, k => do
    Member.readFirst pool i
    Member.readUpTo pool k
  | .onMethod i, k => do
    let _ ← Reader.table16 (Member.read pool)
    Member.readFirst pool i
    Member.readUpTo pool k
  | .onClass, k => do
    let _ ← Reader.table16 (Member.read pool)
    let _ ← Reader.table16 (Member.read pool)
    Attribute.readFirst pool k
  | .inBody _, _ => throw .endOfInput

/-- Everything before an attribute. -/
def readUpTo (location : Location) (position : Nat) : Reader Unit := do
  let pool ← readFront
  readWithin pool location position

end ClassFile

/-! ## Passing over bytes -/

/-- The reader takes these bytes and gives this value, whatever stands behind them. -/
def Passes {α : Type} (r : Reader α) (a : α) (bs : Bytes) : Prop :=
  ∀ s rest, s.rest = bs ++ rest → ∃ s', r s = .ok a s' ∧ s'.rest = rest

theorem Reads.passes {α : Type} {r : Reader α} {R : α → Bytes → Prop} (h : Reads r R) {a : α}
    {bs : Bytes} (ha : R a bs) : Passes r a bs :=
  fun _ _ hs => h.complete ha hs

theorem passes_pure {α : Type} (a : α) : Passes (pure a) a [] :=
  (Reads.pure a).passes ⟨rfl, rfl⟩

theorem Passes.bind {α β : Type} {r : Reader α} {f : α → Reader β} {a : α} {b : β} {x y : Bytes}
    (hr : Passes r a x) (hf : Passes (f a) b y) : Passes (r >>= f) b (x ++ y) := by
  intro s rest hs
  rw [List.append_assoc] at hs
  obtain ⟨s₁, first, hs₁⟩ := hr s _ hs
  obtain ⟨s₂, second, hs₂⟩ := hf s₁ rest hs₁
  refine ⟨s₂, ?_, hs₂⟩
  show EStateM.bind r f s = _
  unfold EStateM.bind
  rw [first]
  exact second

theorem passes_word16 (w : UInt16) : Passes (Reader.lift Decoder.word16) w (.ofWord16 w) :=
  Reads.word16.lift.passes rfl

/-! ## Places of attributes -/

/-- An attribute has its place among some bytes: `reach` stops in front of it, and what is put there
instead makes up what `Result` says. -/
def Around (A : Attribute → Bytes → Prop) (reach : Reader Unit) (a : Attribute) (bs : Bytes)
    (Result : (Attribute → Attribute) → Bytes → Prop) : Prop :=
  ∃ u x v, bs = u ++ (x ++ v) ∧ Passes reach () u ∧ A a x ∧
    ∀ f y, A (f a) y → Result f (u ++ (y ++ v))

namespace Around

variable {α : Type} {A : Attribute → Bytes → Prop} {reach : Reader Unit} {a : Attribute}
  {bs : Bytes} {Result Result' : (Attribute → Attribute) → Bytes → Prop}

theorem mono (h : Around A reach a bs Result) (weaker : ∀ f y, Result f y → Result' f y) :
    Around A reach a bs Result' := by
  obtain ⟨u, x, v, split, reached, hx, put⟩ := h
  exact ⟨u, x, v, split, reached, hx, fun f y hy => weaker f _ (put f y hy)⟩

/-- A place stays a place when more stands behind it. -/
theorem append (h : Around A reach a bs Result) (v : Bytes) :
    Around A reach a (bs ++ v) fun f z => ∃ y, Result f y ∧ z = y ++ v := by
  obtain ⟨u, x, v', rfl, reached, hx, put⟩ := h
  refine ⟨u, x, v' ++ v, ?_, reached, hx, ?_⟩
  · simp only [List.append_assoc]
  · intro f y hy
    refine ⟨_, put f y hy, ?_⟩
    simp only [List.append_assoc]

/-- A place stays a place when more is read in front of it. -/
theorem behind_of (next : α → Reader Unit) {b : α} (h : Around A (next b) a bs Result)
    {front : Reader α} {u : Bytes} (passes : Passes front b u) :
    Around A (front >>= next) a (u ++ bs) fun f z => ∃ y, Result f y ∧ z = u ++ y := by
  obtain ⟨u', x, v, rfl, reached, hx, put⟩ := h
  refine ⟨u ++ u', x, v, ?_, passes.bind reached, hx, ?_⟩
  · rw [List.append_assoc]
  · intro f y hy
    exact ⟨_, put f y hy, List.append_assoc u u' _⟩

theorem behind (h : Around A reach a bs Result) {front : Reader α} {b : α} {u : Bytes}
    (passes : Passes front b u) :
    Around A (front >>= fun _ => reach) a (u ++ bs) fun f z => ∃ y, Result f y ∧ z = u ++ y :=
  behind_of (fun _ => reach) h passes

end Around

section Places

variable {pool : Pool} {A : Attribute → Bytes → Prop} {a : Attribute} {k : Nat} {bs : Bytes}

/-- A stretch of a table is passed over by reading the count and so many elements. -/
theorem passes_first {α : Type} {r : Reader α} {R : α → Bytes → Prop} (reads : Reads r R)
    {as : List α} {k : Nat} {b : α} (hk : as[k]? = some b) {u : Bytes}
    (h : Series R (as.take k) u) (count : UInt16) :
    Passes (do
      let _ ← Reader.lift Decoder.word16
      let _ ← repeated r k
      pure ()) () (.ofWord16 count ++ u) := by
  have size : (as.take k).length = k := by
    obtain ⟨within, -⟩ := List.getElem?_eq_some_iff.mp hk
    rw [List.length_take]
    omega
  have elements : Passes (repeated r k) (as.take k) u := (reads.repeated k).passes ⟨size, h⟩
  -- the closing `pure` takes no bytes
  have skipped := elements.bind (f := fun _ => pure ()) (passes_pure ())
  rw [List.append_nil] at skipped
  exact (passes_word16 count).bind skipped

theorem Attribute.around (reads : Reads (Attribute.read pool maxNesting) A)
    {table : List Attribute} (h : Table A table bs) (ha : table[k]? = some a) :
    Around A (Attribute.readFirst pool k) a bs fun f => Table A (table.modify k f) := by
  obtain ⟨u, x, v, rfl, front, hx, put⟩ := h.around ha
  exact ⟨_, x, v, rfl, passes_first reads ha front _, hx, put⟩

theorem Member.around (reads : Reads (Attribute.read pool maxNesting) A) {m : Member}
    (h : Member.Layout A m bs) (ha : m.attributes[k]? = some a) :
    Around A (Member.readUpTo pool k) a bs fun f =>
      Member.Layout A { m with attributes := m.attributes.modify k f } := by
  obtain ⟨x, table, rfl⟩ := h
  -- the three words in front of the attributes are passed over one by one
  have place := (((Attribute.around reads table ha).behind (passes_word16 m.descriptor)).behind
    (passes_word16 m.name)).behind (passes_word16 m.flags.bits)
  refine place.mono fun f z result => ?_
  obtain ⟨_, ⟨_, ⟨y, table', rfl⟩, rfl⟩, rfl⟩ := result
  exact ⟨y, table', rfl⟩

theorem Member.aroundTable (reads : Reads (Attribute.read pool maxNesting) A)
    {table : List Member} (h : Table (Member.Layout A) table bs) {i : Nat} {m : Member}
    (hm : table[i]? = some m) (ha : m.attributes[k]? = some a) :
    Around A (Member.readFirst pool i >>= fun _ => Member.readUpTo pool k) a bs fun f =>
      Table (Member.Layout A)
        (table.modify i fun m => { m with attributes := m.attributes.modify k f }) := by
  obtain ⟨u, x, v, rfl, front, hx, put⟩ := h.around hm
  have passes : Passes (Member.readFirst pool i) () (.ofWord16 (.ofNat table.length) ++ u) :=
    passes_first (Member.reads reads) hm front _
  refine (((Member.around reads hx ha).append v).behind passes).mono fun f z result => ?_
  obtain ⟨_, ⟨y, layout, rfl⟩, rfl⟩ := result
  exact put (fun m => { m with attributes := m.attributes.modify k f }) y layout

end Places

namespace ClassFile

variable {A : Attribute → Bytes → Prop} {c : ClassFile} {bs : Bytes}

/-- The bytes before the fields. -/
def front (c : ClassFile) (pool interfaces : Bytes) : Bytes :=
  .ofWord32 magic ++ (.ofWord16 c.minorVersion ++ (.ofWord16 c.majorVersion ++ (pool ++
    (.ofWord16 c.flags.bits ++ (.ofWord16 c.thisClass ++ (.ofWord16 c.superClass ++ interfaces))))))

/-- The bytes behind the interfaces, given those of attributes. -/
def Tables (A : Attribute → Bytes → Prop) (c : ClassFile) (bs : Bytes) : Prop :=
  ∃ fields methods attributes, Table (Member.Layout A) c.fields fields ∧
    Table (Member.Layout A) c.methods methods ∧ Table A c.attributes attributes ∧
    bs = fields ++ (methods ++ attributes)

/-- The fields are where the front of a class ends. -/
theorem layout_iff_front {P : Pool → Bytes → Prop} : c.Layout P A bs ↔
    ∃ pool interfaces tables, P c.pool pool ∧
      Table (fun w x => x = .ofWord16 w) c.interfaces interfaces ∧ c.Tables A tables ∧
      bs = c.front pool interfaces ++ tables := by
  constructor
  · intro h
    obtain ⟨pool, _, hp, ⟨i, f, m, t, hi, hf, hm, ht, rfl⟩, rfl⟩ := h
    refine ⟨pool, i, _, hp, hi, ⟨f, m, t, hf, hm, ht, rfl⟩, ?_⟩
    simp only [header, front, List.append_assoc]
  · intro h
    obtain ⟨pool, i, _, hp, hi, ⟨f, m, t, hf, hm, ht, rfl⟩, rfl⟩ := h
    refine ⟨pool, _, hp, ⟨i, f, m, t, hi, hf, hm, ht, rfl⟩, ?_⟩
    simp only [header, front, List.append_assoc]

theorem passes_readFront {pool interfaces : Bytes} (hp : Pool.Stored c.pool pool)
    (hi : Table (fun w x => x = .ofWord16 w) c.interfaces interfaces) :
    Passes readFront c.pool (c.front pool interfaces) := by
  have start : Passes (Reader.lift readMagic) () (.ofWord32 magic) :=
    reads_readMagic.lift.passes rfl
  have pools : Passes (Reader.lift Pool.read) c.pool pool := Pool.reads.lift.passes hp
  have last : Passes (do
      let _ ← Reader.lift (Decoder.table16 Decoder.word16)
      pure c.pool) c.pool (interfaces ++ []) :=
    ((Reads.table16 .word16).lift.passes hi).bind (passes_pure c.pool)
  rw [List.append_nil] at last
  have word := fun w => passes_word16 w
  exact start.bind ((word _).bind ((word _).bind (pools.bind ((word _).bind ((word _).bind
    ((word _).bind last))))))

/-- Every attribute outside of bodies has its place in the tables behind the interfaces. -/
theorem around_tables (reads : Reads (Attribute.read c.pool maxNesting) A) (h : c.Tables A bs)
    {location : Location} {table : List Attribute} {k : Nat} {a : Attribute}
    (outside : ∀ i, location ≠ .inBody i) (found : c.attributesAt? location = some table)
    (ha : table[k]? = some a) :
    Around A (readWithin c.pool location k) a bs fun f =>
      (c.updateAttributes (fun attributes => attributes.modify k f) location).Tables A := by
  obtain ⟨fields, methods, attributes, hf, hm, ht, rfl⟩ := h
  have passesFields : Passes (Reader.table16 (Member.read c.pool)) c.fields fields :=
    (Reads.readerTable16 (Member.reads reads)).passes hf
  have passesMethods : Passes (Reader.table16 (Member.read c.pool)) c.methods methods :=
    (Reads.readerTable16 (Member.reads reads)).passes hm
  cases location with
  | inBody i => exact absurd rfl (outside i)
  | onClass =>
      obtain rfl : c.attributes = table := Option.some.inj found
      have place := ((Attribute.around reads ht ha).behind passesMethods).behind passesFields
      refine place.mono fun f z result => ?_
      obtain ⟨_, ⟨y, put, rfl⟩, rfl⟩ := result
      exact ⟨fields, methods, y, hf, hm, put, rfl⟩
  | onField i =>
      obtain ⟨m, hmember, rfl⟩ := Option.map_eq_some_iff.mp found
      have place := (Member.aroundTable reads hf hmember ha).append (methods ++ attributes)
      refine place.mono fun f z result => ?_
      obtain ⟨y, put, rfl⟩ := result
      exact ⟨y, methods, attributes, put, hm, ht, rfl⟩
  | onMethod i =>
      obtain ⟨m, hmember, rfl⟩ := Option.map_eq_some_iff.mp found
      have place := ((Member.aroundTable reads hm hmember ha).append attributes).behind passesFields
      refine place.mono fun f z result => ?_
      obtain ⟨_, ⟨y, put, rfl⟩, rfl⟩ := result
      exact ⟨fields, y, attributes, hf, put, ht, rfl⟩

theorem around (reads : Reads (Attribute.read c.pool maxNesting) A)
    (h : c.Layout Pool.Stored A bs) {location : Location} {table : List Attribute} {k : Nat}
    {a : Attribute} (outside : ∀ i, location ≠ .inBody i)
    (found : c.attributesAt? location = some table) (ha : table[k]? = some a) :
    Around A (readUpTo location k) a bs fun f =>
      (c.updateAttributes (fun attributes => attributes.modify k f) location).Layout
        Pool.Stored A := by
  obtain ⟨pool, interfaces, tables, hp, hi, ht, rfl⟩ := layout_iff_front.mp h
  have place := around_tables reads ht outside found ha
  refine (place.behind_of (fun pool => readWithin pool location k)
    (passes_readFront hp hi)).mono fun f z result => ?_
  obtain ⟨y, put, rfl⟩ := result
  rw [layout_iff_front]
  -- the front of the class does not depend on its attributes
  cases location <;> exact ⟨pool, interfaces, y, hp, hi, put, rfl⟩

theorem not_inBody_of_readUpTo {location : Location} {k : Nat} {s s' : Reading}
    (h : readUpTo location k s = .ok () s') (i : Nat) : location ≠ .inBody i := by
  rintro rfl
  -- such a place is refused once the front of the class is read
  have stuck : readUpTo (.inBody i) k s = (readFront >>= fun _ => throw .endOfInput) s := rfl
  rw [stuck] at h
  change EStateM.bind readFront (fun _ => throw .endOfInput) s = _ at h
  unfold EStateM.bind at h
  cases front : readFront s with
  | ok pool s₁ =>
      rw [front] at h
      cases h
  | error e s₁ =>
      rw [front] at h
      cases h

theorem pool_updateAttributes (g : List Attribute → List Attribute) (location : Location) :
    (c.updateAttributes g location).pool = c.pool := by
  cases location <;> rfl

/-- Every attribute outside of bodies has its place in the input: six bytes of header and the
payload, behind what is read before it. -/
theorem exists_place {input rest : Bytes} {notices noticed : Array Notice} {location : Location}
    {table : List Attribute} {k : Nat}
    (accepted : ClassFile.read ⟨input, notices⟩ = .ok c ⟨rest, noticed⟩)
    (outside : ∀ i, location ≠ .inBody i) (found : c.attributesAt? location = some table)
    (within : k < table.length) :
    ∃ u h p v stopped, input = u ++ (h ++ (p ++ v)) ∧ h.length = 6 ∧
      readUpTo location k ⟨input, notices⟩ = .ok () ⟨h ++ (p ++ v), stopped⟩ ∧
      Attribute.readHeader (h ++ (p ++ v)) = .ok (table[k].name, p) v := by
  obtain ⟨_, layout, split⟩ := ClassFile.reads.sound accepted
  have ha : table[k]? = some table[k] := List.getElem?_eq_getElem within
  obtain ⟨u, x, v, rfl, reached, ⟨⟨-, short⟩, written⟩, -⟩ :=
    around (reads_attribute c.pool) layout outside found ha
  -- the bytes of an attribute that was read are those it is written in
  obtain ⟨p, small, -, rfl⟩ := Attribute.short_and_emits_iff.mp ⟨short, written⟩
  have split' : input = u ++ (.ofWord16 table[k].name ++ .ofWord32 (sizeWord p) ++
      (p ++ (v ++ rest))) := by
    rw [show input = _ from split]
    show u ++ (_ ++ v) ++ rest = _
    simp only [List.append_assoc]
  obtain ⟨⟨_, stopped⟩, stop, rfl⟩ := reached ⟨input, notices⟩ _ split'
  refine ⟨u, _, p, v ++ rest, stopped, split', rfl, stop, ?_⟩
  have front : Source.rest (.ofWord16 table[k].name ++ .ofWord32 (sizeWord p) ++
      (p ++ (v ++ rest)) : Bytes) =
      (.ofWord16 table[k].name ++ (.ofWord32 (sizeWord p) ++ p)) ++ (v ++ rest) := by
    show .ofWord16 table[k].name ++ .ofWord32 (sizeWord p) ++ (p ++ (v ++ rest)) = _
    simp only [List.append_assoc]
  obtain ⟨_, header, rfl⟩ := (Attribute.reads_readHeader _ (table[k].name, p) (v ++ rest)).mpr
    ⟨_, ⟨small, rfl⟩, front⟩
  exact header

/-- Other bytes in the place of a payload change that payload and nothing else.  Here `u` is what
stands before an attribute of a class that was read, `h` is the header of that attribute, `p` is its
payload and `v` is what stands behind. -/
theorem read_of_payload {u h p v rest : Bytes} {notices noticed stopped : Array Notice}
    {location : Location} {table : List Attribute} {k : Nat} {name : UInt16}
    (accepted : ClassFile.read ⟨u ++ (h ++ (p ++ v)), notices⟩ = .ok c ⟨rest, noticed⟩)
    (found : c.attributesAt? location = some table) (within : k < table.length)
    (place : readUpTo location k ⟨u ++ (h ++ (p ++ v)), notices⟩ = .ok () ⟨h ++ (p ++ v), stopped⟩)
    (header : Attribute.readHeader (h ++ (p ++ v)) = .ok (name, p) v)
    (p' : Bytes) (same : p'.length = p.length) :
    ∃ payload noticed', ClassFile.read ⟨u ++ (h ++ (p' ++ v)), notices⟩ =
      .ok (c.updateAttributes
        (fun attributes => attributes.modify k fun a => { a with payload := payload }) location)
        ⟨rest, noticed'⟩ := by
  obtain ⟨_, layout, split⟩ := ClassFile.reads.sound accepted
  have ha : table[k]? = some table[k] := List.getElem?_eq_getElem within
  obtain ⟨u', x, v', rfl, reached, ⟨⟨-, short⟩, written⟩, put⟩ :=
    around (reads_attribute c.pool) layout (not_inBody_of_readUpTo place) found ha
  -- the reader stops in front of the bytes of the attribute
  have split' : u ++ (h ++ (p ++ v)) = u' ++ (x ++ (v' ++ rest)) := by
    have whole : u ++ (h ++ (p ++ v)) = u' ++ (x ++ v') ++ rest := split
    simp only [whole, List.append_assoc]
  obtain ⟨_, stop, ahead⟩ := reached ⟨_, notices⟩ _ split'
  rw [place] at stop
  cases stop
  have ahead : h ++ (p ++ v) = x ++ (v' ++ rest) := ahead
  rw [ahead] at split'
  obtain rfl : u = u' := List.append_cancel_right split'
  -- those bytes are the header and the payload
  obtain ⟨y, ⟨small, hy⟩, behind⟩ := Attribute.reads_readHeader.sound header
  have behind : h ++ (p ++ v) = y ++ v := behind
  obtain ⟨body, small', -, hx⟩ := Attribute.short_and_emits_iff.mp ⟨short, written⟩
  obtain ⟨parts, rfl, rfl⟩ := Attribute.reads_readHeader.split_unique (s := y ++ v) (a := (name, p))
    (b := (table[k].name, body)) rfl ⟨small, hy⟩ ⟨small', hx⟩ (behind.symm.trans ahead)
  obtain ⟨rfl, rfl⟩ := Prod.mk.inj parts
  rw [← List.append_assoc] at behind
  have header_eq : h = .ofWord16 table[k].name ++ .ofWord32 (sizeWord p) := by
    have both := (List.append_cancel_right behind).trans hy
    rw [← List.append_assoc] at both
    exact List.append_cancel_right both
  -- other bytes of that size are the payload of another attribute of that name
  obtain ⟨q, canonical, emitted⟩ := Attribute.exists_canonical c.pool maxNesting table[k].name
    p' (same ▸ small)
  rw [show sizeWord p' = sizeWord p by rw [sizeWord, same, sizeWord], ← List.append_assoc,
    ← header_eq] at emitted
  have replaced := put (fun a => { a with payload := q }) (h ++ p') ⟨canonical, emitted⟩
  rw [← pool_updateAttributes
    (fun attributes => attributes.modify k fun a => { a with payload := q }) location] at replaced
  have input : u ++ (h ++ (p' ++ (v' ++ rest))) = u ++ (h ++ p' ++ v') ++ rest := by
    simp only [List.append_assoc]
  obtain ⟨⟨_, noticed'⟩, run, rfl⟩ := ClassFile.reads.complete (s := (⟨_, notices⟩ : Reading))
    replaced input
  exact ⟨q, noticed', run⟩

/-- Two classes are named by `NestMembers`; the count says that there are many more. -/
theorem read_of_payload_nestMembers :
    ∃ payload noticed', ClassFile.read
      ⟨[0xCA, 0xFE, 0xBA, 0xBE, 0x00, 0x00, 0x00, 0x37, 0x00, 0x03, 0x01, 0x00, 0x0B, 0x4E, 0x65,
        0x73, 0x74, 0x4D, 0x65, 0x6D, 0x62, 0x65, 0x72, 0x73, 0x07, 0x00, 0x01, 0x00, 0x21, 0x00,
        0x02, 0x00, 0x00, 0x00, 0x00, 0x00, 0x00, 0x00, 0x00, 0x00, 0x01] ++
        ([0x00, 0x01, 0x00, 0x00, 0x00, 0x04] ++ ([0xFF, 0xFF, 0x00, 0x02] ++ [0x2A])), #[]⟩ =
      .ok (ClassFile.updateAttributes
        (fun attributes => attributes.modify 0 fun a => { a with payload := payload })
        ⟨0, 0x37, ⟨#[.utf8 "NestMembers", .classRef 1]⟩, ⟨0x21⟩, 2, 0, [], [], [],
          [⟨1, .nestMembers [2]⟩]⟩ .onClass) ⟨[0x2A], noticed'⟩ :=
  read_of_payload (p := [0x00, 0x01, 0x00, 0x02]) (by rfl) (by rfl) (by decide) (by rfl) (by rfl)
    [0xFF, 0xFF, 0x00, 0x02] rfl

end ClassFile

end JvmClass
