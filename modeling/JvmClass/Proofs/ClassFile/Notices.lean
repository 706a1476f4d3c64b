import JvmClass.Proofs.Attribute.Notices
import JvmClass.Proofs.ClassFile.Kinds
import JvmClass.Proofs.ClassFile.RoundTrip

/-!
# JvmClass.Proofs.ClassFile.Notices — when a class is read without a notice.

A class that comes out of a damaged input looks like any other, since what could not be read is kept
raw like the attributes that are none of the reader's business.  The notices tell the two apart:
there is none just if every attribute whose name announces a payload carries one, in the tables of
the class and in all bodies (`ClassFile.notices_eq_nil_iff`).
-/

namespace JvmClass

theorem Member.silent_read (pool : Pool) (before : Prop) :
    Silent before (Member.read pool)
      fun m => before ∧ ∀ a ∈ m.attributes, a.AllDecoded pool :=
  (Silent.lift _).bind fun _ => (Silent.lift _).bind fun _ => (Silent.lift _).bind fun _ =>
    (Silent.table16 (Attribute.silent_read pool maxNesting) before).bind fun _ => .pure Iff.rfl

namespace ClassFile

theorem silent_read (before : Prop) :
    Silent before ClassFile.read fun c => before ∧ c.Each (Attribute.AllDecoded c.pool) := by
  refine (Silent.lift _).bind fun _ => (Silent.lift _).bind fun _ => (Silent.lift _).bind fun _ =>
    (Silent.lift _).bind fun pool => (Silent.lift _).bind fun _ => (Silent.lift _).bind fun _ =>
    (Silent.lift _).bind fun _ => (Silent.lift _).bind fun _ =>
    (Silent.table16 (Member.silent_read pool) before).bind fun fields =>
    (Silent.table16 (Member.silent_read pool) _).bind fun methods =>
    (Silent.table16 (Attribute.silent_read pool maxNesting) _).bind fun attributes => .pure ?_
  constructor
  · rintro ⟨⟨⟨front, onFields⟩, onMethods⟩, onClass⟩
    exact ⟨front, onClass, onFields, onMethods⟩
  · rintro ⟨front, onClass, onFields, onMethods⟩
    exact ⟨⟨⟨front, onFields⟩, onMethods⟩, onClass⟩

/-- A class is read without a notice just if every attribute of it, in whatever body, carries a
payload and not raw bytes where its name is one with rules for references or that of bodies. -/
theorem notices_eq_nil_iff {input : Bytes} {c : ClassFile}
    (accepted : (parse input).result = .ok c) :
    (parse input).notices = [] ↔ c.Each (Attribute.AllDecoded c.pool) := by
  obtain ⟨s, run, left⟩ := read_of_parse accepted
  have silent : s.notices = #[] ↔ True ∧ c.Each (Attribute.AllDecoded c.pool) :=
    silent_read True _ c s (iff_of_true rfl trivial) run
  rw [left, Array.toList_eq_nil_iff, silent, true_and]

/-- A class whose only method carries a body that was given up for the byte behind its end.  The
nest host in the body was given up before that. -/
def givenUp : ClassFile where
  minorVersion := 0
  majorVersion := 0x37
  pool := ⟨#[.utf8 "NestHost", .classRef 1, .utf8 "Code"]⟩
  flags := ⟨0x21⟩
  thisClass := 2
  superClass := 0
  interfaces := []
  fields := []
  methods := [⟨⟨0⟩, 1, 1, [⟨3, .raw
    [0x00, 0x00, 0x00, 0x00, 0x00, 0x00, 0x00, 0x01, 0xB1, 0x00, 0x00, 0x00, 0x01, 0x00, 0x01, 0x00,
      0x00, 0x00, 0x01, 0x02, 0xFF]⟩]⟩]
  attributes := []

/-- The bytes of the class. -/
def givenUpBytes : Bytes :=
  [0xCA, 0xFE, 0xBA, 0xBE, 0x00, 0x00, 0x00, 0x37, 0x00, 0x04, 0x01, 0x00, 0x08, 0x4E, 0x65, 0x73,
    0x74, 0x48, 0x6F, 0x73, 0x74, 0x07, 0x00, 0x01, 0x01, 0x00, 0x04, 0x43, 0x6F, 0x64, 0x65, 0x00,
    0x21, 0x00, 0x02, 0x00, 0x00, 0x00, 0x00, 0x00, 0x00, 0x00, 0x01, 0x00, 0x00, 0x00, 0x01, 0x00,
    0x01, 0x00, 0x01, 0x00, 0x03, 0x00, 0x00, 0x00, 0x15, 0x00, 0x00, 0x00, 0x00, 0x00, 0x00, 0x00,
    0x01, 0xB1, 0x00, 0x00, 0x00, 0x01, 0x00, 0x01, 0x00, 0x00, 0x00, 0x01, 0x02, 0xFF, 0x00, 0x00]

theorem notices_eq_nil_iff_givenUp :
    ((parse givenUpBytes).result = .ok givenUp ∧
      (parse givenUpBytes).notices = [.malformed .nestHost .endOfInput, .trailingBytes .code] ∧
      ¬ givenUp.Each (Attribute.AllDecoded givenUp.pool)) ∧
    (parse selfHostedBytes).result = .ok selfHosted ∧
      (parse selfHostedBytes).notices = [] ∧
      selfHosted.Each (Attribute.AllDecoded selfHosted.pool) := by
  have damaged : (parse givenUpBytes).result = .ok givenUp := by
    rfl
  have noticed : (parse givenUpBytes).notices =
      [.malformed .nestHost .endOfInput, .trailingBytes .code] := by
    rfl
  have intact : (parse selfHostedBytes).result = .ok selfHosted := by
    rfl
  have silent : (parse selfHostedBytes).notices = [] := by
    rfl
  refine ⟨⟨damaged, noticed, fun all => ?_⟩, intact, silent, (notices_eq_nil_iff intact).mp silent⟩
  have none := (notices_eq_nil_iff damaged).mpr all
  rw [noticed] at none
  cases none

end ClassFile

end JvmClass
