import JvmClass.Proofs.ClassFile.Layout
import JvmClass.Proofs.Pool.Listing

/-!
# JvmClass.Proofs.ClassFile.RoundTrip — when reading and writing a class undo each other.

Neither direction is without exceptions, and both theorems say exactly which these are.  A class
that was read is written in the bytes it was read from unless the pool gets in the way
(`ClassFile.emits_iff_of_read`): everything behind the pool comes back for every input.  A class
that was written is read again as it was just if it is canonical (`ClassFile.read_iff_of_emits`).
-/

namespace JvmClass

open Writer

namespace ClassFile

/-- What is written behind the pool leaves one place for it. -/
theorem emits_iff_of_body {c : ClassFile} {pool body : Bytes}
    (h : c.Body (fun a => Emits (Attribute.write a)) body) :
    Emits c.write (c.header ++ (pool ++ body)) ↔ Emits c.pool.write pool := by
  rw [emits_write_iff]
  constructor
  · intro taken
    rcases taken with ⟨pool', body', hp, hb, same⟩
    -- the body is written in one way only, so the rest is the pool
    have bodies : body = body' :=
      (emits_writeBody_iff.mpr h).unique (emits_writeBody_iff.mpr hb)
    rw [List.append_right_inj, bodies, List.append_left_inj] at same
    rw [same]
    exact hp
  · intro hp
    exact ⟨pool, body, hp, h, rfl⟩

/-- A class with one class constant, named `NestHost`, which is itself and its own nest host. -/
def selfHosted : ClassFile where
  minorVersion := 0
  majorVersion := 0x37
  pool := ⟨#[.utf8 "NestHost", .classRef 1]⟩
  flags := ⟨0x21⟩
  thisClass := 2
  superClass := 0
  interfaces := []
  fields := []
  methods := []
  attributes := [⟨1, .nestHost 2⟩]

/-- The bytes of that class. -/
def selfHostedBytes : Bytes :=
  [0xCA, 0xFE, 0xBA, 0xBE, 0x00, 0x00, 0x00, 0x37, 0x00, 0x03, 0x01, 0x00, 0x08, 0x4E, 0x65, 0x73,
    0x74, 0x48, 0x6F, 0x73, 0x74, 0x07, 0x00, 0x01, 0x00, 0x21, 0x00, 0x02, 0x00, 0x00, 0x00, 0x00,
    0x00, 0x00, 0x00, 0x00, 0x00, 0x01, 0x00, 0x01, 0x00, 0x00, 0x00, 0x02, 0x00, 0x02]

/-! ## Reading, then writing -/

/-- A class that was read is written in exactly the bytes that were read, if the count of its pool
is not 0, no constant of two slots starts in the last slot, and every text is in the stored form.
Otherwise it is not. -/
theorem emits_iff_of_read {input rest : Bytes} {notices notices' : Array Notice} {c : ClassFile}
    (h : ClassFile.read ⟨input, notices⟩ = .ok c ⟨rest, notices'⟩) :
    ∃ used, input = used ++ rest ∧ (Emits c.write used ↔ PoolAsWritten (used.drop 8)) := by
  obtain ⟨used, ⟨pool, body, stored, layout, rfl⟩, split⟩ := ClassFile.reads.sound h
  refine ⟨_, split, ?_⟩
  -- whatever attributes were read are written in the bytes they were read from
  have written := (body_and_iff.mp layout).2
  rw [emits_iff_of_body written]
  exact Pool.emits_iff_of_stored stored body

theorem emits_iff_of_read_selfHosted :
    ClassFile.read ⟨selfHostedBytes ++ [0xFF], #[]⟩ = .ok selfHosted ⟨[0xFF], #[]⟩ ∧
      ∃ used, selfHostedBytes ++ [0xFF] = used ++ [0xFF] ∧
        (Emits selfHosted.write used ↔ PoolAsWritten (used.drop 8)) := by
  have run : ClassFile.read ⟨selfHostedBytes ++ [0xFF], #[]⟩ = .ok selfHosted ⟨[0xFF], #[]⟩ := by
    rfl
  exact ⟨run, emits_iff_of_read run⟩

/-! ## Writing, then reading -/

/-- The marks in the pool are in their places, and every attribute is one that reading gives. -/
structure Canonical (c : ClassFile) : Prop where
  pool : c.pool.Canonical
  attributes : c.Each (Attribute.Canonical c.pool maxNesting)

/-- A class whose payloads fit their length fields is read again as it was written, from the very
bytes and whatever stands behind them, just if it is canonical. -/
theorem read_iff_of_emits {c : ClassFile} {bs : Bytes} (written : Emits c.write bs)
    (short : c.Each Attribute.Short) (rest : Bytes) (notices : Array Notice) :
    (∃ notices', ClassFile.read ⟨bs ++ rest, notices⟩ = .ok c ⟨rest, notices'⟩) ↔ c.Canonical := by
  have run : (∃ notices', ClassFile.read ⟨bs ++ rest, notices⟩ = .ok c ⟨rest, notices'⟩) ↔
      c.Layout Pool.Stored (AttributeStored c.pool) bs := by
    constructor
    · rintro ⟨_, success⟩
      obtain ⟨used, layout, split⟩ := ClassFile.reads.sound success
      -- what follows is left unread, so the bytes of the class are all that is taken
      have same : bs = used := List.append_cancel_right split
      rwa [same]
    · intro layout
      obtain ⟨⟨_, notices'⟩, success, rfl⟩ := ClassFile.reads.complete
        (s := (⟨bs ++ rest, notices⟩ : Reading)) layout rfl
      exact ⟨notices', success⟩
  -- what is left compares two layouts of the same bytes
  rw [run]
  constructor
  · intro h
    rcases h with ⟨pool, body, stored, layout, rfl⟩
    obtain ⟨each, emitted⟩ := body_and_iff.mp layout
    refine ⟨?_, fun a ha => (each.onClass a ha).1, fun m hm a ha => (each.onFields m hm a ha).1,
      fun m hm a ha => (each.onMethods m hm a ha).1⟩
    exact (Pool.stored_iff_of_emits ((emits_iff_of_body emitted).mp written)).mp stored
  · rintro ⟨canonical, each⟩
    obtain ⟨pool, body, hp, emitted, rfl⟩ := emits_write_iff.mp written
    refine ⟨pool, body, (Pool.stored_iff_of_emits hp).mpr canonical, ?_, rfl⟩
    exact body_and_iff.mpr ⟨⟨fun a ha => ⟨each.onClass a ha, short.onClass a ha⟩,
      fun m hm a ha => ⟨each.onFields m hm a ha, short.onFields m hm a ha⟩,
      fun m hm a ha => ⟨each.onMethods m hm a ha, short.onMethods m hm a ha⟩⟩, emitted⟩

theorem read_iff_of_emits_selfHosted :
    Emits selfHosted.write selfHostedBytes ∧ selfHosted.Each Attribute.Short ∧
      ((∃ notices', ClassFile.read ⟨selfHostedBytes ++ [0xFF], #[]⟩ =
        .ok selfHosted ⟨[0xFF], notices'⟩) ↔ selfHosted.Canonical) := by
  have written : Emits selfHosted.write selfHostedBytes := by rfl
  have short : selfHosted.Each Attribute.Short := by
    refine ⟨?_, nofun, nofun⟩
    intro a ha body emitted
    cases List.mem_singleton.mp ha
    rw [emits_word16_iff.mp emitted]
    decide
  exact ⟨written, short, read_iff_of_emits written short [0xFF] #[]⟩

end ClassFile

end JvmClass
