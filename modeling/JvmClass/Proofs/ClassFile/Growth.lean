import JvmClass.Proofs.Attribute.Growth
import JvmClass.Proofs.ClassFile.Findings
import JvmClass.Proofs.ClassFile.RoundTrip

/-!
# JvmClass.Proofs.ClassFile.Growth — constants added to a class.

Tools that change a class add the constants that they need to its pool and leave the rest alone.
Doing so disturbs nothing.  A class that is valid stays valid (`ClassFile.validate_withConstants`).
And a class that was read can be written with the added constants and is read again as it is then,
every attribute as it was, and kept raw just if it was (`ClassFile.read_withConstants`).

The latter is true of classes that do not use the added constants yet.  A name that leads out of the
pool comes to stand for something once the pool reaches so far, and it may then announce a payload.
-/

namespace JvmClass

open Writer

namespace ClassFile

/-- The class with constants pushed to its pool. -/
def withConstants (c : ClassFile) (entries : List Entry) : ClassFile :=
  { c with pool := c.pool.afterPushes entries }

/-- The attributes of the class are those that it had. -/
theorem each_withConstants {P : Attribute → Prop} {c : ClassFile} (h : c.Each P)
    (entries : List Entry) : (c.withConstants entries).Each P :=
  ⟨h.onClass, h.onFields, h.onMethods⟩

/-! ## Validation -/

/-- Pushing constants, whether or not all calls succeed, changes no verdict but that a number leads
out of the pool.  So it leaves a valid class valid. -/
theorem validate_withConstants (p : Pool) (entries : List Entry) :
    (∀ a : Attribute, Lasting (a.validate p) →
      a.validate (p.afterPushes entries) = a.validate p) ∧
    ∀ c : ClassFile, c.pool = p → c.validate.result = .ok () →
      (c.withConstants entries).validate.result = .ok () := by
  have stays : ∀ a : Attribute, Lasting (a.validate p) →
      a.validate (p.afterPushes entries) = a.validate p :=
    fun a lasting => Attribute.validate_of_extends (p.extends_afterPushes entries) lasting
  refine ⟨stays, ?_⟩
  rintro c rfl valid
  rw [validate_eq_ok_iff] at valid ⊢
  intro v visited
  -- the attributes to be checked are those of the class as it was
  have fits : v.2.validate c.pool = .ok () := valid v visited
  show v.2.validate (c.pool.afterPushes entries) = .ok ()
  rw [stays v.2 (by rw [fits]; trivial), fits]

/-- The first attribute stays refused for the same reason, the second for another one. -/
theorem validate_withConstants_selfHosted :
    Attribute.validate (selfHosted.pool.afterPushes [.long 7, .utf8 "NestMembers"])
        ⟨1, .nestHost 1⟩ = .error (.wrongTag .nestHost 1 (.exactly .classRef) (some .utf8)) ∧
      (selfHosted.withConstants [.long 7, .utf8 "NestMembers"]).validate.result = .ok () ∧
      Attribute.validate selfHosted.pool ⟨1, .nestHost 4⟩ = .error (.outOfBounds .nestHost 4 3) ∧
      Attribute.validate (selfHosted.pool.afterPushes [.long 7, .utf8 "NestMembers"])
        ⟨1, .nestHost 4⟩ = .error (.wrongTag .nestHost 4 (.exactly .classRef) none) := by
  have refused : Attribute.validate selfHosted.pool ⟨1, .nestHost 1⟩ =
      .error (.wrongTag .nestHost 1 (.exactly .classRef) (some .utf8)) := rfl
  have grown := validate_withConstants selfHosted.pool [.long 7, .utf8 "NestMembers"]
  refine ⟨?_, grown.2 selfHosted rfl rfl, rfl, rfl⟩
  rw [grown.1 _ (by rw [refused]; trivial), refused]

/-! ## Reading -/

/-- A class that was read, in which the names of all attributes are in use, can be given further
constants: what is then written for it is read as the class with these constants, and every number
that stood for something still stands for the same. -/
theorem read_withConstants {input rest : Bytes} {notices noticed : Array Notice} {c : ClassFile}
    {entries : List Entry} (accepted : ClassFile.read ⟨input, notices⟩ = .ok c ⟨rest, noticed⟩)
    (named : c.Each (Attribute.NamedIn c.pool)) (constants : .unusable ∉ entries) :
    (∀ w, Emits (c.withConstants entries).write w → ∀ more notices', ∃ noticed',
      ClassFile.read ⟨w ++ more, notices'⟩ =
        .ok (c.withConstants entries) ⟨more, noticed'⟩) ∧
    ∀ index entry, c.pool.get? index = some entry →
      (c.withConstants entries).pool.get? index = some entry := by
  have larger : (c.pool.afterPushes entries).Extends c.pool := c.pool.extends_afterPushes entries
  refine ⟨fun w written more notices' => ?_, fun index entry found => larger.get?_eq_some found⟩
  obtain ⟨used, ⟨_, _, stored, body, -⟩, -⟩ := ClassFile.reads.sound accepted
  have pool : (c.pool.afterPushes entries).Canonical :=
    Pool.canonical_afterPushes (Pool.canonical_of_stored stored) constants
  have kept : c.Each fun a => ∃ x, AttributeStored c.pool a x :=
    each_of_body body fun _ x hx => ⟨x, hx⟩
  have attributes : ∀ a : Attribute, (∃ x, AttributeStored c.pool a x) ∧ a.NamedIn c.pool →
      a.Canonical (c.pool.afterPushes entries) maxNesting ∧ a.Short := by
    rintro a ⟨⟨x, ⟨canonical, short⟩, emitted⟩, named⟩
    exact ⟨Attribute.canonical_of_extends larger canonical ⟨short, emitted⟩ named, short⟩
  have each := each_withConstants ((kept.and named).imp attributes) entries
  exact read_of_layout (layout_of_canonical pool each written) more notices'

/-- A class whose only method carries a body, with an attribute in it that is kept raw since a nest
host takes two bytes. -/
def rawInBody : ClassFile where
  minorVersion := 0
  majorVersion := 0x37
  pool := ⟨#[.utf8 "NestHost", .classRef 1, .utf8 "Code"]⟩
  flags := ⟨0x21⟩
  thisClass := 2
  superClass := 0
  interfaces := []
  fields := []
  methods := [⟨⟨0⟩, 1, 1, [⟨3, .code ⟨0, 0, [0xB1], [], [⟨1, .raw [0x02]⟩]⟩⟩]⟩]
  attributes := []

/-- The bytes of the class. -/
def rawInBodyBytes : Bytes :=
  [0xCA, 0xFE, 0xBA, 0xBE, 0x00, 0x00, 0x00, 0x37, 0x00, 0x04, 0x01, 0x00, 0x08, 0x4E, 0x65, 0x73,
    0x74, 0x48, 0x6F, 0x73, 0x74, 0x07, 0x00, 0x01, 0x01, 0x00, 0x04, 0x43, 0x6F, 0x64, 0x65, 0x00,
    0x21, 0x00, 0x02, 0x00, 0x00, 0x00, 0x00, 0x00, 0x00, 0x00, 0x01, 0x00, 0x00, 0x00, 0x01, 0x00,
    0x01, 0x00, 0x01, 0x00, 0x03, 0x00, 0x00, 0x00, 0x14, 0x00, 0x00, 0x00, 0x00, 0x00, 0x00, 0x00,
    0x01, 0xB1, 0x00, 0x00, 0x00, 0x01, 0x00, 0x01, 0x00, 0x00, 0x00, 0x01, 0x02, 0x00, 0x00]

/-- The long takes two of the three numbers that are added. -/
theorem read_withConstants_rawInBody :
    (∃ noticed, ClassFile.read ⟨rawInBodyBytes, #[]⟩ = .ok rawInBody ⟨[], noticed⟩) ∧
      rawInBody.Each (Attribute.NamedIn rawInBody.pool) ∧
      ∃ w, Emits (rawInBody.withConstants [.long 7, .utf8 "A"]).write w ∧
        ∃ noticed, ClassFile.read ⟨w ++ [0xFF], #[]⟩ =
          .ok (rawInBody.withConstants [.long 7, .utf8 "A"]) ⟨[0xFF], noticed⟩ := by
  have accepted : ClassFile.read ⟨rawInBodyBytes, #[]⟩ =
      .ok rawInBody ⟨[], #[.malformed .nestHost .endOfInput]⟩ := by
    rfl
  have named : rawInBody.Each (Attribute.NamedIn rawInBody.pool) := by
    refine ⟨nofun, nofun, fun m hm a ha => ?_⟩
    obtain rfl := List.mem_singleton.mp hm
    obtain rfl := List.mem_singleton.mp ha
    rintro b (rfl | inside)
    · decide
    · cases inside with
      | direct mem =>
          rw [List.mem_singleton.mp mem]
          decide
      | deeper mem inside =>
          -- what is kept raw has nothing in it
          rw [List.mem_singleton.mp mem] at inside
          cases inside
  have written : ∃ w, Emits (rawInBody.withConstants [.long 7, .utf8 "A"]).write w := by
    obtain ⟨_, ⟨_, body, -, layout, -⟩, -⟩ := ClassFile.reads.sound accepted
    have pool : Emits (rawInBody.withConstants [.long 7, .utf8 "A"]).pool.write
        [0x00, 0x07, 0x01, 0x00, 0x08, 0x4E, 0x65, 0x73, 0x74, 0x48, 0x6F, 0x73, 0x74, 0x07, 0x00,
          0x01, 0x01, 0x00, 0x04, 0x43, 0x6F, 0x64, 0x65, 0x05, 0x00, 0x00, 0x00, 0x00, 0x00, 0x00,
          0x00, 0x07, 0x01, 0x00, 0x01, 0x41] := by
      rfl
    -- behind the pool, the class is written as it was read
    exact ⟨_, emits_write_iff.mpr ⟨_, body, pool, (body_and_iff.mp layout).2, rfl⟩⟩
  obtain ⟨w, written⟩ := written
  have again := (read_withConstants accepted named (by decide)).1 w written [0xFF] #[]
  exact ⟨⟨_, accepted⟩, named, w, written, again⟩

end ClassFile

end JvmClass
