import JvmClass.Proofs.Bytes.Refusal
import JvmClass.Proofs.ClassFile.Layout

/-!
# JvmClass.Proofs.ClassFile.NormalForm — a class that was read, written again.

Reading accepts two things that cannot be written.  A constant of two slots may start in the last
slot of the largest pool, which makes the pool one slot too large for its count.  And a text may lie
in a file in a form that is shorter than the one it is written in, so that the latter can outgrow
its count.  Nothing else in a class that was read is too large for its field, and so every other
class is written.  What is written is a normal form: it is read as the same class, and therefore
written in the same bytes once more.
-/

namespace JvmClass

open Writer

/-! ## Texts that are too long -/

/-- The text does not fit its count when it is written. -/
def Text.Overlong (text : String) : Prop :=
  0xFFFF < (Text.encode text).length

instance : DecidablePred Text.Overlong := fun text => Nat.decLt 0xFFFF (Text.encode text).length

/-- The text of a string constant. -/
def Entry.text? : Entry → Option String
  | .utf8 text => some text
  | _ => none

/-- The texts of the string constants, in the order of their slots. -/
def Pool.texts (p : Pool) : List String :=
  p.slots.toList.filterMap Entry.text?

/-- A string is refused if it is too long. -/
theorem Entry.refuses_write_iff {e : Entry} {text : String} {o : Overflow}
    (found : e.text? = some text) :
    Refuses e.write o ↔ Text.Overlong text ∧ o = ⟨(Text.encode text).length⟩ := by
  cases e with
  | utf8 text' =>
      cases found
      show Refuses (Writer.byte _ >>= fun _ => Writer.count16 _ >>= fun _ => Writer.bytes _) o ↔ _
      rw [refuses_bind_iff_of_succeeds (succeeds_byte _), refuses_bind_iff, refuses_count16_iff,
        or_iff_left fun h => not_refuses_bytes h.2]
      exact Iff.rfl
  | _ => cases found

theorem Entry.succeeds_write_iff {e : Entry} {text : String} (found : e.text? = some text) :
    Succeeds e.write ↔ ¬ Text.Overlong text := by
  constructor
  · intro h long
    exact ((refuses_write_iff found).mpr ⟨long, rfl⟩).not_succeeds h
  · intro short
    rcases emits_or_refuses (w := e.write) with h | ⟨o, refused⟩
    · exact h
    · exact absurd ((refuses_write_iff found).mp refused).1 short

/-- Other constants are never refused. -/
theorem Entry.succeeds_write {e : Entry} (none : e.text? = none) : Succeeds e.write := by
  rcases emits_or_refuses (w := e.write) with h | ⟨o, s, failed⟩
  · exact h
  · cases e with
    | utf8 text => cases none
    | _ => cases failed

/-- Of a list of constants, the first string that is too long is refused. -/
theorem Entry.refuses_forM_iff {entries : List Entry} {o : Overflow} :
    Refuses (entries.forM Entry.write) o ↔
      ∃ text, (entries.filterMap text?).find? (Text.Overlong ·) = some text ∧
        o = ⟨(Text.encode text).length⟩ := by
  induction entries with
  | nil =>
      constructor
      · exact fun h => absurd h not_refuses_pure
      · rintro ⟨_, none, -⟩
        cases none
  | cons e entries ih =>
      show Refuses (e.write >>= fun _ => entries.forM Entry.write) o ↔ _
      cases found : e.text? with
      | none => rw [refuses_bind_iff_of_succeeds (succeeds_write found), ih,
          List.filterMap_cons_none found]
      | some text =>
          rw [refuses_bind_iff, ih, refuses_write_iff found, succeeds_write_iff found,
            List.filterMap_cons_some found]
          by_cases long : Text.Overlong text
          · rw [List.find?_cons_of_pos (by simpa using long), and_iff_right long,
              or_iff_left fun h => h.1 long]
            constructor
            · rintro rfl
              exact ⟨text, rfl, rfl⟩
            · rintro ⟨_, same, rfl⟩
              cases same
              rfl
          · rw [List.find?_cons_of_neg (by simpa using long), and_iff_right long,
              or_iff_right fun h => long h.1]

/-- A pool is refused for its size, or else for the first text that is too long. -/
theorem Pool.refuses_write_iff {p : Pool} {o : Overflow} :
    Refuses p.write o ↔ (0x10000 ≤ p.size ∧ o = ⟨p.size⟩) ∨
      p.size < 0x10000 ∧ ∃ text, p.texts.find? (Text.Overlong ·) = some text ∧
        o = ⟨(Text.encode text).length⟩ := by
  unfold write
  rw [refuses_bind_iff, refuses_count16_iff, succeeds_count16_iff, Entry.refuses_forM_iff]
  rfl

theorem Pool.exists_refuses_iff {p : Pool} :
    (∃ o, Refuses p.write o) ↔ 0x10000 ≤ p.size ∨ ∃ text ∈ p.texts, Text.Overlong text := by
  simp only [refuses_write_iff]
  constructor
  · rintro ⟨o, ⟨large, -⟩ | ⟨-, text, found, -⟩⟩
    · exact .inl large
    · have long := List.find?_some found
      exact .inr ⟨text, List.mem_of_find?_eq_some found, of_decide_eq_true long⟩
  · intro given
    by_cases large : 0x10000 ≤ p.size
    · exact ⟨_, .inl ⟨large, rfl⟩⟩
    · obtain ⟨text, mem, long⟩ := given.resolve_left large
      have some : (p.texts.find? (Text.Overlong ·)).isSome :=
        List.find?_isSome.mpr ⟨text, mem, decide_eq_true long⟩
      obtain ⟨first, found⟩ := Option.isSome_iff_exists.mp some
      exact ⟨_, .inr ⟨Nat.not_le.mp large, first, found, rfl⟩⟩

/-! ## Pools that are read -/

theorem Pool.size_le_of_stored {p : Pool} {bs : Bytes} (h : p.Stored bs) : p.size ≤ 0x10000 := by
  obtain ⟨size, entries, _, rfl, fills, -, -⟩ := h
  have small := size.toNat_lt
  rw [size_ofEntries]
  rcases Entry.widths_of_fills fills with within | ⟨-, beyond⟩ <;> omega

namespace ClassFile

section Read

variable {c : ClassFile} {used : Bytes} {o : Overflow}

theorem succeeds_writeBody (h : c.Layout Pool.Stored (AttributeStored c.pool) used) :
    Succeeds c.writeBody := by
  obtain ⟨_, body, -, layout, -⟩ := h
  exact ⟨body, emits_writeBody_iff.mpr (body_and_iff.mp layout).2⟩

/-- A class that was read is refused for its pool only. -/
theorem refuses_write_iff (h : c.Layout Pool.Stored (AttributeStored c.pool) used) :
    Refuses c.write o ↔ Refuses c.pool.write o := by
  have noBody : ¬ (Succeeds c.pool.write ∧ Refuses c.writeBody o) := fun refused =>
    refused.2.not_succeeds (succeeds_writeBody h)
  rw [write_eq, refuses_bind_iff_of_succeeds (succeeds_word32 _),
    refuses_bind_iff_of_succeeds (succeeds_word16 _),
    refuses_bind_iff_of_succeeds (succeeds_word16 _), refuses_bind_iff, or_iff_left noBody]

/-- What is written for a class that was read can be read as the class. -/
theorem layout_of_emits (h : c.Layout Pool.Stored (AttributeStored c.pool) used) {w : Bytes}
    (written : Emits c.write w) : c.Layout Pool.Stored (AttributeStored c.pool) w := by
  obtain ⟨_, _, stored, layout, -⟩ := h
  exact layout_of_canonical (Pool.canonical_of_stored stored) (body_and_iff.mp layout).1 written

end Read

/-- A class that was read fails to be written just if its pool has outgrown its count or one of its
texts has, and the error names the size of the pool, or the length of the first such text.
Otherwise the class is written in bytes that are read as the class again. -/
theorem write_of_read {input rest : Bytes} {notices notices' : Array Notice} {c : ClassFile}
    (accepted : ClassFile.read ⟨input, notices⟩ = .ok c ⟨rest, notices'⟩) :
    ((∃ e s, c.write .unbounded = .error e s) ↔
      c.pool.size = 0x10000 ∨ ∃ text ∈ c.pool.texts, Text.Overlong text) ∧
    (c.pool.size = 0x10000 → Refuses c.write ⟨0x10000⟩) ∧
    (c.pool.size ≠ 0x10000 → ∀ text, c.pool.texts.find? (Text.Overlong ·) = some text →
      Refuses c.write ⟨(Text.encode text).length⟩) ∧
    (c.pool.size ≠ 0x10000 → (∀ text ∈ c.pool.texts, ¬ Text.Overlong text) →
      ∃ w, Emits c.write w ∧
        ∃ noticed, ClassFile.read ⟨w, #[]⟩ = .ok c ⟨[], noticed⟩) := by
  obtain ⟨used, layout, -⟩ := ClassFile.reads.sound accepted
  have bound : c.pool.size ≤ 0x10000 := by
    obtain ⟨_, _, stored, -⟩ := layout
    exact Pool.size_le_of_stored stored
  have cause : ∀ o, Refuses c.write o ↔ Refuses c.pool.write o := fun o => refuses_write_iff layout
  have fails : (∃ e s, c.write .unbounded = .error e s) ↔
      c.pool.size = 0x10000 ∨ ∃ text ∈ c.pool.texts, Text.Overlong text := by
    rw [exists_error_iff, exists_congr cause, Pool.exists_refuses_iff]
    exact or_congr_left
      ⟨fun large => Nat.le_antisymm bound large, fun full => Nat.le_of_eq full.symm⟩
  refine ⟨fails, fun full => ?_, fun fits text found => ?_, fun fits short => ?_⟩
  · rw [cause, Pool.refuses_write_iff]
    exact .inl ⟨Nat.le_of_eq full.symm, by rw [full]⟩
  · rw [cause, Pool.refuses_write_iff]
    exact .inr ⟨Nat.lt_of_le_of_ne bound fits, text, found, rfl⟩
  · rcases emits_or_refuses (w := c.write) with ⟨w, written⟩ | refused
    · obtain ⟨⟨_, noticed⟩, run, rfl⟩ := ClassFile.reads.complete (s := (⟨w, #[]⟩ : Reading))
        (layout_of_emits layout written) (List.append_nil w).symm
      exact ⟨w, written, noticed, run⟩
    · rcases fails.mp (exists_error_iff.mpr refused) with full | ⟨text, mem, long⟩
      · exact absurd full fits
      · exact absurd long (short text mem)

/-- A class with one constant, a text that consists of the character 0. -/
def withZeroText : ClassFile where
  minorVersion := 0
  majorVersion := 0x37
  pool := ⟨#[.utf8 "\x00"]⟩
  flags := ⟨0⟩
  thisClass := 0
  superClass := 0
  interfaces := []
  fields := []
  methods := []
  attributes := []

/-- The text lies in the file as the single byte 0, but is written in two bytes. -/
theorem write_of_read_withZeroText :
    ∃ input, ClassFile.read ⟨input, #[]⟩ = .ok withZeroText ⟨[], #[]⟩ ∧
      ∃ w, w ≠ input ∧ Emits withZeroText.write w ∧
        ∃ noticed, ClassFile.read ⟨w, #[]⟩ = .ok withZeroText ⟨[], noticed⟩ := by
  have accepted : ClassFile.read ⟨[0xCA, 0xFE, 0xBA, 0xBE, 0x00, 0x00, 0x00, 0x37, 0x00, 0x02,
      0x01, 0x00, 0x01, 0x00, 0x00, 0x00, 0x00, 0x00, 0x00, 0x00, 0x00, 0x00, 0x00, 0x00, 0x00,
      0x00, 0x00, 0x00], #[]⟩ = .ok withZeroText ⟨[], #[]⟩ := by
    rfl
  have fits : withZeroText.pool.size ≠ 0x10000 := by decide
  have short : ∀ text ∈ withZeroText.pool.texts, ¬ Text.Overlong text := by
    intro text mem
    cases List.mem_singleton.mp mem
    decide
  obtain ⟨w, written, again⟩ := (write_of_read accepted).2.2.2 fits short
  refine ⟨_, accepted, w, ?_, written, again⟩
  rintro rfl
  -- the length of the text in the stored form is 2
  cases written

end ClassFile

end JvmClass
