import JvmClass.Proofs.Attribute.Dependence
import JvmClass.Proofs.ClassFile.Findings
import JvmClass.Proofs.ClassFile.Layout

/-!
# JvmClass.Proofs.ClassFile.Kinds — what can be wrong with a class that was read.

The reader looks up the name of an attribute to tell what to read, and keeps the bytes of the
payload if that fails.  Validation looks up the name again, asks whether the payload goes with it,
and whether there are rules for its references.  `PayloadKind.names` lists the names of each kind of
payload, and reader and validation both keep to it.  So reading leaves little room for violations.
An attribute without a usable name was kept raw, and one that carries something else went with its
name when it was read; all that can be wrong with it is where its references lead
(`ClassFile.invalidAttributes_of_read`).

This is settled for one attribute at a time, from canonicity, and so it holds of attributes in
bodies and of those that were kept raw just as well.
-/

namespace JvmClass

/-! ## The names of a kind of payload -/

/-- The names that payloads of a kind stand under.  Raw bytes can stand under any. -/
def PayloadKind.names : PayloadKind → List AttributeName
  | .constantValue => [.constantValue]
  | .annotations => [.runtimeVisibleAnnotations, .runtimeInvisibleAnnotations]
  | .typeAnnotations => [.runtimeVisibleTypeAnnotations, .runtimeInvisibleTypeAnnotations]
  | .parameterAnnotations =>
    [.runtimeVisibleParameterAnnotations, .runtimeInvisibleParameterAnnotations]
  | .annotationDefault => [.annotationDefault]
  | .nestHost => [.nestHost]
  | .nestMembers => [.nestMembers]
  | .enclosingMethod => [.enclosingMethod]
  | .exceptions => [.exceptions]
  | .innerClasses => [.innerClasses]
  | .code => [.code]
  | .raw => AttributeName.all

/-- The kind that is read under a name is one whose payloads stand under it. -/
theorem AttributeName.payloadKind?_eq_some_iff {name : AttributeName} {kind : PayloadKind}
    (typed : kind ≠ .raw) : name.payloadKind? = some kind ↔ name ∈ kind.names := by
  cases kind with
  | raw => exact absurd rfl typed
  | _ => cases name <;> decide

/-- Validation lets payloads stand under just these names. -/
theorem Payload.belongsTo_iff_mem_names {p : Payload} {name : AttributeName} :
    p.belongsTo name = true ↔ name ∈ p.kind.names := by
  by_cases raw : p.kind = .raw
  · rw [raw, Payload.belongsTo, Payload.isRaw, raw]
    have listed : name ∈ PayloadKind.raw.names := by cases name <;> decide
    exact iff_of_true rfl listed
  · rw [Payload.belongsTo_iff raw, AttributeName.payloadKind?_eq_some_iff raw]

/-- The violation is one that an attribute from the reader can have: what is wrong is the name of
raw bytes, or a reference that stands under the rules of the name. -/
def Violation.Accords (pool : Pool) (a : Attribute) : Violation → Prop
  | .nameOutOfBounds .. | .nameNotUtf8 _ => a.payload.isRaw = true
  | .payloadMismatch .. => False
  | .outOfBounds name .. | .wrongTag name .. => pool.attributeName? a.name = some name ∧
    name.hasReferenceRules = true ∧ a.payload.isRaw = false ∧ name ∈ a.payload.kind.names

/-! ## One attribute -/

section Attributes

variable {pool : Pool} {levels : Nat} {a : Attribute} {text : String} {name : AttributeName}

theorem Pool.attributeName?_of_named {index : UInt16}
    (named : pool.get? index = some (.utf8 text)) :
    pool.attributeName? index = AttributeName.ofString? text := by
  rw [attributeName?, utf8?_eq_some_iff.mpr named, Option.bind_some]

theorem Pool.attributeName?_of_unnamed {index : UInt16}
    (unnamed : ∀ text, pool.get? index ≠ some (.utf8 text)) : pool.attributeName? index = none := by
  unfold attributeName?
  cases found : pool.utf8? index with
  | none => rfl
  | some text => exact absurd (utf8?_eq_some_iff.mp found) (unnamed text)

/-- What the reader makes of bytes goes with the name that they stand under. -/
theorem Attribute.exists_name_of_canonical (canonical : a.Canonical pool levels)
    (typed : a.payload.isRaw = false) :
    ∃ name, pool.attributeName? a.name = some name ∧ a.payload.belongsTo name = true := by
  obtain ⟨index, p⟩ := a
  have kind : p.kind ≠ .raw := ne_of_beq_false typed
  obtain ⟨⟨name, named, announced⟩, -⟩ :=
    (canonicalWith_iff_of_kind kind).mp (canonical_iff.mp canonical)
  exact ⟨name, named, (Payload.belongsTo_iff kind).mpr announced⟩

/-- Under a slot that holds no defined name, the reader keeps the bytes. -/
theorem Attribute.isRaw_of_unnamed (canonical : a.Canonical pool levels)
    (unnamed : pool.attributeName? a.name = none) : a.payload.isRaw = true := by
  by_contra typed
  obtain ⟨name, named, -⟩ := exists_name_of_canonical canonical (Bool.eq_false_iff.mpr typed)
  rw [unnamed] at named
  cases named

/-- What is wrong with a reference is that it leads out of the pool or to the wrong kind. -/
theorem Reference.fault?_eq_some {r : Reference} {v : Violation}
    (fault : r.fault? pool name = some v) :
    v = .outOfBounds name r.index pool.size ∨
      ∃ found, v = .wrongTag name r.index r.expectation found := by
  unfold Reference.fault? Pool.fault? at fault
  split at fault
  · cases fault
  · split at fault
    · exact .inl (Option.some.inj fault).symm
    · split at fault
      · cases fault
      · exact .inr ⟨_, (Option.some.inj fault).symm⟩

/-- What is wrong with a payload that goes with the name is wrong with one of its references. -/
theorem Payload.exists_fault_of_validate {p : Payload} {v : Violation}
    (belongs : p.belongsTo name = true) (failed : p.validate pool name = .error v) :
    ∃ r ∈ p.references, r.fault? pool name = some v := by
  rw [Payload.validate, if_pos belongs, forM_validate_eq] at failed
  cases first : p.references.findSome? (Reference.fault? pool name) with
  | none =>
      rw [first] at failed
      cases failed
  | some w =>
      rw [first] at failed
      cases failed
      exact List.exists_of_findSome?_eq_some first

/-- Validation of what was read ends in one of the violations that the reader leaves room for. -/
theorem Attribute.accords_of_canonical {v : Violation} (canonical : a.Canonical pool levels)
    (failed : a.validate pool = .error v) : v.Accords pool a := by
  have verdict := verdict_validate pool a
  rw [failed] at verdict
  cases verdict with
  | outside h =>
      refine isRaw_of_unnamed canonical (Pool.attributeName?_of_unnamed fun text named => ?_)
      rw [Pool.get?_eq_none_iff.mpr h] at named
      cases named
  | unnamed inside h => exact isRaw_of_unnamed canonical (Pool.attributeName?_of_unnamed h)
  | mismatched named known ruled typed stranger =>
      -- the name that the reader went by is the one that validation finds
      obtain ⟨name, hit, belongs⟩ := exists_name_of_canonical canonical typed
      rw [Pool.attributeName?_of_named named, known] at hit
      cases hit
      rw [belongs] at stranger
      cases stranger
  | unsound named known ruled typed belongs fault =>
      rw [validate_of_ruled named known ruled typed] at failed
      obtain ⟨r, -, faulty⟩ := Payload.exists_fault_of_validate belongs failed
      rw [← Pool.attributeName?_of_named named] at known
      have listed := Payload.belongsTo_iff_mem_names.mp belongs
      rcases Reference.fault?_eq_some faulty with rfl | ⟨found, rfl⟩
      · exact ⟨known, ruled, typed, listed⟩
      · exact ⟨known, ruled, typed, listed⟩

end Attributes

/-! ## Classes -/

namespace ClassFile

theorem read_of_parse {input : Bytes} {c : ClassFile} (accepted : (parse input).result = .ok c) :
    ∃ s, ClassFile.read ⟨input, #[]⟩ = .ok c s ∧ (parse input).notices = s.notices.toList := by
  unfold parse Reader.run at accepted ⊢
  cases run : ClassFile.read ⟨input, #[]⟩ with
  | error e s =>
      rw [run] at accepted
      cases accepted
  | ok d s =>
      rw [run] at accepted
      cases accepted
      exact ⟨s, rfl, rfl⟩

/-- Every attribute of a class that was read is canonical. -/
theorem each_canonical_of_read {s s' : Reading} {c : ClassFile}
    (h : ClassFile.read s = .ok c s') : c.Each (Attribute.Canonical c.pool maxNesting) := by
  obtain ⟨used, ⟨pool, body, -, layout, -⟩, -⟩ := ClassFile.reads.sound h
  exact each_of_body layout fun a x stored => stored.1.1

/-- An attribute at a place stands in a table of the class, or in a body that does. -/
theorem canonical_of_attribute? {c : ClassFile}
    (each : c.Each (Attribute.Canonical c.pool maxNesting)) {p : Place} {a : Attribute}
    (h : c.attribute? p = some a) : ∃ levels, a.Canonical c.pool levels := by
  cases p with
  | onClass position => exact ⟨_, each.onClass a (List.mem_of_getElem? h)⟩
  | onField member position =>
      obtain ⟨m, hm, ha⟩ := Option.bind_eq_some_iff.mp h
      exact ⟨_, each.onFields m (List.mem_of_getElem? hm) a (List.mem_of_getElem? ha)⟩
  | onMethod member position =>
      obtain ⟨m, hm, ha⟩ := Option.bind_eq_some_iff.mp h
      exact ⟨_, each.onMethods m (List.mem_of_getElem? hm) a (List.mem_of_getElem? ha)⟩
  | inBody member carrier position =>
      obtain ⟨m, hm, behind⟩ := Option.bind_eq_some_iff.mp h
      obtain ⟨⟨name, payload⟩, hb, inside⟩ := Option.bind_eq_some_iff.mp behind
      have outer := each.onMethods m (List.mem_of_getElem? hm) _ (List.mem_of_getElem? hb)
      cases payload with
      | code body =>
          have typed := ((Attribute.canonicalWith_iff_of_kind (p := .code body) nofun).mp
            (Attribute.canonical_iff.mp outer)).2
          exact ⟨_, typed.2 a (List.mem_of_getElem? inside)⟩
      | _ => cases inside

/-- Each finding in a class that was read is that of an attribute at some place, and it says of this
attribute what the reader leaves room for: that a name which leads to no text stands over raw bytes,
or that a reference of a payload which was read by its name breaks the rules of the name. -/
theorem invalidAttributes_of_read {input : Bytes} {c : ClassFile}
    (accepted : (parse input).result = .ok c) :
    (∃ places, List.Forall₂ c.FoundAt places c.invalidAttributes.result) ∧
      ∀ p f a, c.FoundAt p f → c.attribute? p = some a → f.violation.Accords c.pool a := by
  obtain ⟨s, run, -⟩ := read_of_parse accepted
  constructor
  · rw [invalidAttributes_eq]
    exact ⟨_, forall₂_foundAt c fun e mem => mem_places_iff.mp mem⟩
  · intro p f a finding here
    obtain ⟨levels, canonical⟩ := canonical_of_attribute? (each_canonical_of_read run) here
    obtain ⟨b, there, failed⟩ := finding.violation
    obtain rfl : b = a := Option.some.inj (there.symm.trans here)
    exact Attribute.accords_of_canonical canonical failed

/-- A class in which each of the four violations occurs, two of them in the body of a method. -/
def strayNames : ClassFile where
  minorVersion := 0
  majorVersion := 0x37
  pool := ⟨#[.utf8 "NestHost", .classRef 1, .utf8 "Code"]⟩
  flags := ⟨0x21⟩
  thisClass := 2
  superClass := 0
  interfaces := []
  fields := []
  methods := [⟨⟨0⟩, 1, 1, [⟨3, .code ⟨0, 0, [0xB1], [], [⟨1, .nestHost 1⟩, ⟨9, .raw [0x02]⟩]⟩⟩]⟩]
  attributes := [⟨2, .raw []⟩, ⟨1, .nestHost 9⟩]

/-- The bytes of the class. -/
def strayNamesBytes : Bytes :=
  [0xCA, 0xFE, 0xBA, 0xBE, 0x00, 0x00, 0x00, 0x37, 0x00, 0x04, 0x01, 0x00, 0x08, 0x4E, 0x65,
    0x73, 0x74, 0x48, 0x6F, 0x73, 0x74, 0x07, 0x00, 0x01, 0x01, 0x00, 0x04, 0x43, 0x6F, 0x64, 0x65,
    0x00, 0x21, 0x00, 0x02, 0x00, 0x00, 0x00, 0x00, 0x00, 0x00, 0x00, 0x01, 0x00, 0x00, 0x00, 0x01,
    0x00, 0x01, 0x00, 0x01, 0x00, 0x03, 0x00, 0x00, 0x00, 0x1C, 0x00, 0x00, 0x00, 0x00, 0x00, 0x00,
    0x00, 0x01, 0xB1, 0x00, 0x00, 0x00, 0x02, 0x00, 0x01, 0x00, 0x00, 0x00, 0x02, 0x00, 0x01, 0x00,
    0x09, 0x00, 0x00, 0x00, 0x01, 0x02, 0x00, 0x02, 0x00, 0x02, 0x00, 0x00, 0x00, 0x00, 0x00, 0x01,
    0x00, 0x00, 0x00, 0x02, 0x00, 0x09]

theorem invalidAttributes_of_read_strayNames :
    (parse strayNamesBytes).result = .ok strayNames ∧
      strayNames.invalidAttributes.result =
        [⟨.onClass, .nameNotUtf8 2⟩, ⟨.onClass, .outOfBounds .nestHost 9 4⟩,
          ⟨.inBody 0, .wrongTag .nestHost 1 (.exactly .classRef) (some .utf8)⟩,
          ⟨.inBody 0, .nameOutOfBounds 9 4⟩] ∧
      ∀ p f a, strayNames.FoundAt p f → strayNames.attribute? p = some a →
        f.violation.Accords strayNames.pool a := by
  have accepted : (parse strayNamesBytes).result = .ok strayNames := by
    rfl
  exact ⟨accepted, rfl, (invalidAttributes_of_read accepted).2⟩

end ClassFile

end JvmClass
