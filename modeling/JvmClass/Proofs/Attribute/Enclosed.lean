import JvmClass.Proofs.Attribute.Growth

/-!
# JvmClass.Proofs.Attribute.Enclosed — bodies on their own and as payloads.

A body can be read on its own, and it can be read as the payload of an attribute.  Both ways succeed
on the same bytes.  But the attribute uses up one of the levels, which the body on its own does not;
so what stands in an enclosed body has one level less.

Fewer levels do nothing but cut off what is too deep (`Attribute.canonical_clip_of_le`).  The body
that an attribute gives is therefore the one that is read on its own, clipped by a level, and the
two are the same just if nothing in the body needs all levels.
-/

namespace JvmClass

open Writer

/-! ## Clipping what was read -/

/-- What is not too deep stays as it is. -/
theorem Payload.clip_of_depth_le {levels : Nat} {p : Payload} (shallow : p.depth ≤ levels) :
    p.clip levels = p := by
  induction levels generalizing p with
  | zero =>
      by_cases isBody : p.kind = .code
      · obtain ⟨body, rfl⟩ := kind_eq_code_iff.mp isBody
        cases shallow
      · exact clip_of_le isBody shallow
  | succ levels ih =>
      by_cases isBody : p.kind = .code
      · obtain ⟨body, rfl⟩ := kind_eq_code_iff.mp isBody
        have inner := CodeBody.depth_le_iff.mp (Nat.le_of_succ_le_succ shallow)
        have same : ∀ a ∈ body.attributes, a.clip levels = id a := by
          rintro ⟨name, payload⟩ ha
          exact congrArg (Attribute.mk name) (ih (inner _ ha))
        obtain ⟨maxStack, maxLocals, bytes, handlers, attributes⟩ := body
        show code ⟨maxStack, maxLocals, bytes, handlers, attributes.map (Attribute.clip levels)⟩ = _
        rw [List.map_congr_left same, List.map_id]
      · exact clip_of_le isBody shallow

section Levels

variable {pool : Pool} {levels levels' : Nat}

theorem Attribute.canonical_code_iff {index : UInt16} {body : CodeBody} :
    Canonical pool (levels + 1) ⟨index, .code body⟩ ↔
      pool.Announces index .code ∧ ∀ a ∈ body.attributes, a.Canonical pool levels := by
  rw [canonical_iff, canonicalWith_iff_of_kind (p := .code body) nofun]
  exact and_congr_right fun _ => and_iff_right (Nat.succ_pos levels)

/-- Bytes that were kept with many levels are kept with few. -/
theorem Attribute.canonical_raw_of_le (fewer : levels ≤ levels') {index : UInt16} {bytes : Bytes}
    (canonical : Canonical pool levels' ⟨index, .raw bytes⟩) (short : bytes.length < 0x100000000) :
    Canonical pool levels ⟨index, .raw bytes⟩ := by
  rw [canonical_raw_iff] at canonical ⊢
  rintro q ⟨announced, typed, written⟩
  obtain ⟨q', same, typed', written'⟩ := Payload.exists_of_kind pool pool fewer typed written short
  exact canonical q' ⟨by rwa [same], typed', written'⟩

/-- An attribute that was read with many levels can be read with few, clipped to them. -/
theorem Attribute.canonical_clip_of_le (fewer : levels ≤ levels') {a : Attribute} {bs : Bytes}
    (canonical : a.Canonical pool levels') (written : Emits a.payload.write bs)
    (short : bs.length < 0x100000000) : (a.clip levels).Canonical pool levels := by
  -- both numbers of levels go down by one at each body
  induction levels' generalizing levels a bs with
  | zero =>
      obtain ⟨index, p⟩ := a
      obtain rfl : levels = 0 := Nat.le_zero.mp fewer
      have shallow : p.depth ≤ 0 := depth_le_of_canonical canonical
      rwa [clip, Payload.clip_of_depth_le shallow]
  | succ n ih =>
      obtain ⟨index, p⟩ := a
      by_cases raw : p.kind = .raw
      · cases p with
        | raw bytes =>
            obtain rfl := emits_bytes_iff.mp written
            rw [clip, Payload.clip_raw]
            exact canonical_raw_of_le fewer canonical short
        | _ => cases raw
      · by_cases isBody : p.kind = .code
        · obtain ⟨body, rfl⟩ := Payload.kind_eq_code_iff.mp isBody
          obtain ⟨announced, inside⟩ := canonical_code_iff.mp canonical
          refine canonical_clip_body announced fun m same a ha => ?_
          obtain ⟨bytes, small, emitted⟩ := CodeBody.exists_written_of_mem written short ha
          exact ih (by omega) (inside a ha) emitted small
        · rw [canonical_iff, canonicalWith_iff_of_kind raw,
            Payload.typedWith_iff_of_flat raw isBody] at canonical
          obtain ⟨announced, legal, -⟩ := canonical
          exact canonical_clip_of_flat announced raw isBody legal written short

end Levels

/-! ## The two ways of reading a body -/

namespace CodeBody

/-- The body with this many levels left for each of its attributes. -/
def clip (levels : Nat) (b : CodeBody) : CodeBody :=
  { b with attributes := b.attributes.map (Attribute.clip levels) }

/-- A body is read on its own from these bytes, to the last of them. -/
def ReadAlone (pool : Pool) (bytes : Bytes) (b : CodeBody) : Prop :=
  ∃ notices, CodeBody.read pool maxNesting ⟨bytes, #[]⟩ = .ok b ⟨[], notices⟩

/-- An attribute of this name with these bytes as its payload is read, and carries the body. -/
def ReadEnclosed (pool : Pool) (index : UInt16) (bytes : Bytes) (b : CodeBody) : Prop :=
  ∃ s, Attribute.read pool maxNesting
    ⟨.ofWord16 index ++ (.ofWord32 (.ofNat bytes.length) ++ bytes), #[]⟩ = .ok ⟨index, .code b⟩ s

variable {pool : Pool} {index : UInt16} {bytes : Bytes} {b c : CodeBody}

theorem ReadEnclosed.unique (hb : ReadEnclosed pool index bytes b)
    (hc : ReadEnclosed pool index bytes c) : b = c := by
  obtain ⟨_, run⟩ := hb
  obtain ⟨_, run'⟩ := hc
  rw [run] at run'
  cases run'
  rfl

theorem readAlone_iff (short : bytes.length < 0x100000000) :
    ReadAlone pool bytes b ↔
      (∀ a ∈ b.attributes, a.Canonical pool maxNesting) ∧ Emits b.write bytes := by
  constructor
  · rintro ⟨notices, run⟩
    obtain ⟨used, ⟨all, written⟩, same⟩ := (CodeBody.reads pool maxNesting).sound run
    obtain rfl : bytes = used := same.trans (List.append_nil used)
    exact ⟨fun a ha => (all a ha).1, written⟩
  · rintro ⟨canonical, written⟩
    have inner : ∀ a ∈ b.attributes, a.Short :=
      Payload.shortInside_of_emits (p := .code b) written short
    obtain ⟨⟨_, notices⟩, run, rfl⟩ := (CodeBody.reads pool maxNesting).complete
      (s := (⟨bytes, #[]⟩ : Reading)) ⟨fun a ha => ⟨canonical a ha, inner a ha⟩, written⟩
      (List.append_nil bytes).symm
    exact ⟨notices, run⟩

theorem readEnclosed_iff (named : pool.attributeName? index = some .code)
    (short : bytes.length < 0x100000000) :
    ReadEnclosed pool index bytes b ↔
      (∀ a ∈ b.attributes, a.Canonical pool (maxNesting - 1)) ∧ Emits b.write bytes := by
  have announced : pool.Announces index .code := ⟨.code, named, rfl⟩
  constructor
  · rintro ⟨s, run⟩
    obtain ⟨used, ⟨canonical, stored⟩, same⟩ := (Attribute.reads pool maxNesting).sound run
    obtain ⟨payload, small, written, rfl⟩ := Attribute.short_and_emits_iff.mp stored
    -- both payloads are those behind the header, which is read in one way only
    obtain ⟨parts, -, -⟩ := Attribute.reads_readHeader.split_unique (a := (index, bytes))
      (b := (index, payload)) (List.append_nil _).symm ⟨short, rfl⟩ ⟨small, rfl⟩
      ((List.append_nil _).trans same)
    cases parts
    exact ⟨(Attribute.canonical_code_iff.mp canonical).2, written⟩
  · rintro ⟨canonical, written⟩
    have stored := (Attribute.short_and_emits_iff (a := ⟨index, .code b⟩)).mpr
      ⟨bytes, short, written, rfl⟩
    have whole : Attribute.Canonical pool maxNesting ⟨index, .code b⟩ :=
      Attribute.canonical_code_iff.mpr ⟨announced, canonical⟩
    obtain ⟨s, run, -⟩ := (Attribute.reads pool maxNesting).complete
      (s := (⟨_, #[]⟩ : Reading)) ⟨whole, stored⟩ (List.append_nil _).symm
    exact ⟨s, run⟩

/-- The same bytes can be read in both ways. -/
theorem ReadEnclosed.exists_readAlone (named : pool.attributeName? index = some .code)
    (short : bytes.length < 0x100000000) (h : ReadEnclosed pool index bytes b) :
    ∃ d, ReadAlone pool bytes d := by
  obtain ⟨canonical, written⟩ := (readEnclosed_iff named short).mp h
  have typed : (Payload.code b).TypedWith maxNesting
      (Attribute.CanonicalInside pool maxNesting) := ⟨by decide, canonical⟩
  obtain ⟨q, same, deeper, emitted⟩ :=
    Payload.exists_of_kind pool pool (Nat.le_succ maxNesting) typed written short
  obtain ⟨d, rfl⟩ := Payload.kind_eq_code_iff.mp same
  exact ⟨d, (readAlone_iff short).mpr ⟨deeper.2, emitted⟩⟩

/-- An attribute gives the body that is read on its own, clipped by a level. -/
theorem ReadAlone.enclosed_clip (named : pool.attributeName? index = some .code)
    (short : bytes.length < 0x100000000) (h : ReadAlone pool bytes b) :
    ReadEnclosed pool index bytes (b.clip (maxNesting - 1)) := by
  obtain ⟨canonical, written⟩ := (readAlone_iff short).mp h
  refine (readEnclosed_iff named short).mpr ⟨fun c hc => ?_, ?_⟩
  · obtain ⟨a, ha, rfl⟩ := List.mem_map.mp hc
    obtain ⟨x, small, emitted⟩ := exists_written_of_mem written short ha
    exact Attribute.canonical_clip_of_le (by decide) (canonical a ha) emitted small
  · show Emits ((Payload.code b).clip maxNesting).write bytes
    exact Payload.emits_clip written short

/-- The body that an attribute with the name of bodies gives is the one that is read on its own from
the same bytes, with a level less for what stands in it.  So the two ways of reading agree just
where nothing in the body nests so deep that it needs all of the levels. -/
theorem readEnclosed_iff_readAlone (named : pool.attributeName? index = some .code)
    (short : bytes.length < 0x100000000) :
    (∀ b, ReadEnclosed pool index bytes b ↔
      ∃ d, ReadAlone pool bytes d ∧ b = d.clip (maxNesting - 1)) ∧
    ((∀ b, ReadEnclosed pool index bytes b ↔ ReadAlone pool bytes b) ↔
      ∀ d, ReadAlone pool bytes d → d.depth < maxNesting) := by
  have clipped : ∀ b, ReadEnclosed pool index bytes b ↔
      ∃ d, ReadAlone pool bytes d ∧ b = d.clip (maxNesting - 1) := by
    intro b
    constructor
    · intro enclosed
      obtain ⟨d, alone⟩ := enclosed.exists_readAlone named short
      exact ⟨d, alone, enclosed.unique (alone.enclosed_clip named short)⟩
    · rintro ⟨d, alone, rfl⟩
      exact alone.enclosed_clip named short
  refine ⟨clipped, ?_, ?_⟩
  · intro agree d alone
    obtain ⟨canonical, -⟩ := (readEnclosed_iff named short).mp ((agree d).mpr alone)
    exact Nat.lt_succ_of_le (depth_le_iff.mpr fun a ha =>
      Attribute.depth_le_of_canonical (canonical a ha))
  · intro shallow b
    have same : ∀ d, ReadAlone pool bytes d → d.clip (maxNesting - 1) = d := by
      intro d alone
      have unclipped := Payload.clip_of_depth_le (p := .code d) (shallow d alone)
      exact Payload.code.inj unclipped
    rw [clipped]
    constructor
    · rintro ⟨d, alone, rfl⟩
      rwa [same d alone]
    · intro alone
      exact ⟨b, alone, (same b alone).symm⟩

/-! ## A body that needs all levels -/

/-- A body with one attribute, a default value that consists of so many arrays. -/
def withArrays (n : Nat) : CodeBody :=
  ⟨0, 0, [], [], [⟨2, .annotationDefault (nestedArrays n)⟩]⟩

/-- The bytes of the body. -/
def withArraysBytes (n : Nat) : Bytes :=
  [0x00, 0x00, 0x00, 0x00, 0x00, 0x00, 0x00, 0x00, 0x00, 0x00, 0x00, 0x01, 0x00, 0x02] ++
    (.ofWord32 (sizeWord (nestedArraysBytes n)) ++ nestedArraysBytes n)

/-- The names in use. -/
def arraysPool : Pool := ⟨#[.utf8 "Code", .utf8 "AnnotationDefault"]⟩

theorem length_withArraysBytes (n : Nat) : (withArraysBytes n).length = 3 * n + 21 := by
  rw [withArraysBytes, List.length_append, List.length_append, Bytes.length_ofWord32,
    length_nestedArraysBytes]
  show 14 + (4 + (3 * n + 3)) = _
  omega

theorem short_withArraysBytes {n : Nat} (few : n ≤ maxNesting) :
    (withArraysBytes n).length < 0x100000000 := by
  rw [length_withArraysBytes]
  unfold maxNesting at few
  omega

theorem emits_withArrays {n : Nat} (few : n ≤ maxNesting) :
    Emits (withArrays n).write (withArraysBytes n) := by
  have small : (nestedArraysBytes n).length < 0x100000000 := by
    rw [length_nestedArraysBytes]
    unfold maxNesting at few
    omega
  have written := (Attribute.short_and_emits_iff
    (a := ⟨2, .annotationDefault (nestedArrays n)⟩)).mpr ⟨_, small, emits_nestedArrays n, rfl⟩
  have single : Series (fun a => Emits (Attribute.write a)) (withArrays n).attributes _ :=
    Series.cons_iff.mpr ⟨_, [], written.2, .nil, (List.append_nil _).symm⟩
  have handlers : Table (fun h => Emits (Handler.write h)) (withArrays n).handlers
      (Bytes.ofWord16 (.ofNat 0) ++ []) := ⟨Nat.zero_lt_succ _, [], .nil, rfl⟩
  have attributes : Table (fun a => Emits (Attribute.write a)) (withArrays n).attributes
      (Bytes.ofWord16 (.ofNat 1) ++ _) := ⟨Nat.one_lt_succ_succ _, _, single, rfl⟩
  refine emits_write_iff.mpr ⟨_, _, Nat.zero_lt_succ _, handlers, attributes, ?_⟩
  have front : ([0x00, 0x00, 0x00, 0x00, 0x00, 0x00, 0x00, 0x00, 0x00, 0x00, 0x00, 0x01, 0x00,
      0x02] : Bytes) = Bytes.ofWord16 0 ++ (Bytes.ofWord16 0 ++ (Bytes.ofWord32 (.ofNat 0) ++
        ([] ++ ((Bytes.ofWord16 (.ofNat 0) ++ []) ++
          (Bytes.ofWord16 (.ofNat 1) ++ Bytes.ofWord16 2))))) := by
    decide
  rw [withArraysBytes, front]
  simp only [List.append_assoc]
  rfl

theorem readAlone_withArrays {n : Nat} (few : n ≤ maxNesting) :
    ReadAlone arraysPool (withArraysBytes n) (withArrays n) := by
  refine (readAlone_iff (short_withArraysBytes few)).mpr ⟨fun a ha => ?_, emits_withArrays few⟩
  obtain rfl := List.mem_singleton.mp ha
  have announced : arraysPool.Announces 2 .annotationDefault := ⟨.annotationDefault, rfl, rfl⟩
  refine Attribute.canonical_of_flat announced nofun nofun (legal_nestedArrays n) ?_
  exact Nat.le_trans (Nat.le_of_eq (height_nestedArrays n)) few

/-- With as many arrays as there are levels, an attribute leaves the default value as bytes. -/
theorem readEnclosed_iff_readAlone_withArrays :
    arraysPool.attributeName? 1 = some .code ∧ (withArraysBytes 64).length < 0x100000000 ∧
      ReadAlone arraysPool (withArraysBytes 64) (withArrays 64) ∧
      ReadEnclosed arraysPool 1 (withArraysBytes 64)
        ⟨0, 0, [], [], [⟨2, .raw (nestedArraysBytes 64)⟩]⟩ := by
  have named : arraysPool.attributeName? 1 = some .code := rfl
  have short := short_withArraysBytes (Nat.le_refl maxNesting)
  have alone : ReadAlone arraysPool (withArraysBytes 64) (withArrays 64) :=
    readAlone_withArrays (Nat.le_refl 64)
  have deep : 63 < (Payload.annotationDefault (nestedArrays 64)).depth :=
    Nat.lt_of_lt_of_eq (by decide) (height_nestedArrays 64).symm
  have encoded : (Payload.annotationDefault (nestedArrays 64)).encoded = nestedArraysBytes 64 :=
    Payload.encoded_of_emits (emits_nestedArrays 64)
  have clipped : (withArrays 64).clip (maxNesting - 1) =
      ⟨0, 0, [], [], [⟨2, .raw (nestedArraysBytes 64)⟩]⟩ := by
    rw [← encoded, ← Payload.clip_of_lt (by decide) deep]
    rfl
  refine ⟨named, short, alone, ?_⟩
  rw [← clipped]
  exact ((readEnclosed_iff_readAlone named short).1 _).mpr ⟨_, alone, rfl⟩

/-- The body that is read on its own is not what the attribute gives. -/
theorem readAlone_not_readEnclosed :
    ReadAlone arraysPool (withArraysBytes 64) (withArrays 64) ∧
      ¬ ReadEnclosed arraysPool 1 (withArraysBytes 64) (withArrays 64) := by
  have short := short_withArraysBytes (Nat.le_refl maxNesting)
  refine ⟨readAlone_withArrays (Nat.le_refl 64), fun enclosed => ?_⟩
  obtain ⟨canonical, -⟩ := (readEnclosed_iff rfl short).mp enclosed
  have shallow : (nestedArrays 64).height ≤ 63 :=
    Attribute.depth_le_of_canonical (canonical _ List.mem_cons_self)
  rw [height_nestedArrays] at shallow
  exact absurd shallow (by decide)

end CodeBody

end JvmClass
