import JvmClass.Proofs.Bytes.Definite
import JvmClass.Proofs.ClassFile.Layout

/-!
# JvmClass.Proofs.ClassFile.Delimited — a class file ends where its bytes say.

The bytes of a class tell where it ends: no class is the beginning of another, and a class that is
cut short anywhere is found to be cut short, never to be another class and never to be malformed.
On the other hand, what is malformed stays so: a wrong magic number, an unknown kind of constant or
a text that is none is refused in the same way whatever follows.  Nothing else is refused, since
attributes keep what goes wrong in their payloads to themselves.
-/

namespace JvmClass

/-- Why a class is refused although its input does not end too early. -/
inductive ClassFile.Malformed : ReadError → Prop
  | magic (found : UInt32) : Malformed (.badMagic found)
  | tag (number : UInt8) : Malformed (.unknownTag number)
  | text : Malformed .malformedText

open ClassFile (Malformed)

/-! ## Constants -/

namespace Entry

theorem definite_readText : Definite Malformed readText := by
  refine Definite.word16.bind fun size => (Definite.take size.toNat).bind fun payload => ?_
  cases Text.decode payload with
  | none => exact .fail .text
  | some text => exact .pure text

theorem definite_readContents (tag : Tag) : Definite Malformed (readContents tag) := by
  cases tag with
  | utf8 => exact definite_readText.map utf8
  | integer => exact Definite.word32.bind fun w => .pure (integer (.ofUInt32 w))
  | long => exact Definite.word64.bind fun w => .pure (long (.ofUInt64 w))
  | float => exact Definite.word32.map _
  | double => exact Definite.word64.map _
  | classRef | string | methodType | moduleRef | packageRef => exact Definite.word16.map _
  | fieldRef | methodRef | interfaceMethodRef | nameAndType | dynamic | invokeDynamic =>
      exact (Definite.word16.map _).seq .word16
  | methodHandle => exact (Definite.byte.map _).seq .word16

theorem definite_read : Definite Malformed Entry.read := by
  refine Definite.byte.bind fun number => ?_
  cases Tag.ofNumber? number with
  | none => exact .fail (.tag number)
  | some tag => exact definite_readContents tag

theorem definite_readFilling (n : Nat) : Definite Malformed (readFilling n) := by
  -- an entry takes one slot or two, so all smaller numbers are needed
  induction n using Nat.strongRecOn with
  | ind n ih =>
      cases n with
      | zero => exact .pure []
      | succ n =>
          rw [readFilling_succ]
          refine definite_read.bind fun e => ?_
          have := e.width_pos
          exact (ih (n + 1 - e.width) (by omega)).bind fun rest => .pure (e :: rest)

end Entry

theorem Pool.definite_read : Definite Malformed Pool.read :=
  Definite.word16.bind fun size => (Entry.definite_readFilling (size.toNat - 1)).bind
    fun entries => .pure (Pool.ofEntries entries)

/-! ## Attributes and members -/

/-- The header needs its bytes and no more, and nothing in the payload can stop the reader. -/
theorem Attribute.definite_readWith (pool : Pool) (payload : PayloadKind → Reader Payload) :
    Definite Malformed (Attribute.readWith pool payload) := by
  have header : Definite Malformed Attribute.readHeader :=
    Definite.word16.bind fun name => Definite.word32.bind fun length =>
      (Definite.take length.toNat).bind fun bytes => .pure (name, bytes)
  refine header.lift.bind fun ⟨index, bytes⟩ => ?_
  dsimp only
  cases pool.attributeName? index with
  | none => exact .pure (Attribute.mk index (.raw bytes))
  | some name =>
      dsimp only
      cases name.payloadKind? with
      | none => exact .pure (Attribute.mk index (.raw bytes))
      | some kind => exact (Definite.contained name bytes (payload kind)).map (Attribute.mk index)

theorem Attribute.definite_read (pool : Pool) (levels : Nat) :
    Definite Malformed (Attribute.read pool levels) := by
  cases levels with
  | zero => exact definite_readWith pool _
  | succ levels => exact definite_readWith pool _

theorem Member.definite_read (pool : Pool) : Definite Malformed (Member.read pool) :=
  Definite.word16.lift.bind fun flags => Definite.word16.lift.bind fun name =>
    Definite.word16.lift.bind fun descriptor =>
    (Definite.readerTable16 (Attribute.definite_read pool maxNesting)).bind fun attributes =>
    .pure (Member.mk ⟨flags⟩ name descriptor attributes)

/-! ## Classes -/

namespace ClassFile

theorem definite_readMagic : Definite Malformed readMagic := by
  refine Definite.word32.bind fun found => ?_
  by_cases same : found = magic
  · rw [if_pos same]
    exact .pure ()
  · rw [if_neg same]
    exact .fail (.magic found)

theorem definite_readBody (minorVersion majorVersion : UInt16) (pool : Pool) :
    Definite Malformed (readBody minorVersion majorVersion pool) :=
  Definite.word16.lift.bind fun _ => Definite.word16.lift.bind fun _ =>
    Definite.word16.lift.bind fun _ => (Definite.table16 .word16).lift.bind fun _ =>
    (Definite.readerTable16 (Member.definite_read pool)).bind fun _ =>
    (Definite.readerTable16 (Member.definite_read pool)).bind fun _ =>
    (Definite.readerTable16 (Attribute.definite_read pool maxNesting)).bind fun _ => .pure _

theorem definite_read : Definite Malformed ClassFile.read :=
  definite_readMagic.lift.bind fun _ => Definite.word16.lift.bind fun minorVersion =>
    Definite.word16.lift.bind fun majorVersion => Pool.definite_read.lift.bind fun pool =>
    definite_readBody minorVersion majorVersion pool

/-- A class is read from its own bytes with the notices that it is read with from a longer input. -/
theorem read_own_bytes {input rest : Bytes} {notices noticed : Array Notice} {c : ClassFile}
    (run : ClassFile.read ⟨input, notices⟩ = .ok c ⟨rest, noticed⟩) :
    ∃ used, input = used ++ rest ∧ ClassFile.read ⟨used, notices⟩ = .ok c ⟨[], noticed⟩ := by
  obtain ⟨used, layout, split⟩ := ClassFile.reads.sound run
  have split : input = used ++ rest := split
  obtain ⟨⟨_, noticed'⟩, alone, rfl⟩ := ClassFile.reads.complete
    (s := (⟨used, notices⟩ : Reading)) layout (List.append_nil used).symm
  -- with the rest behind it, this is the run that was given
  have whole := definite_read.value alone rest
  change ClassFile.read ⟨used ++ rest, notices⟩ = .ok c ⟨rest, noticed'⟩ at whole
  rw [← split, run] at whole
  cases whole
  exact ⟨used, split, alone⟩

/-- Of the bytes of a class none can be missed. -/
theorem read_take {used : Bytes} {notices noticed : Array Notice} {c : ClassFile}
    (alone : ClassFile.read ⟨used, notices⟩ = .ok c ⟨[], noticed⟩) {k : Nat}
    (short : k < used.length) :
    ∃ s, ClassFile.read ⟨used.take k, notices⟩ = .error .endOfInput s := by
  have whole : Extensible.extend (⟨used.take k, notices⟩ : Reading) (used.drop k) =
      ⟨used, notices⟩ := by
    show Reading.mk (used.take k ++ used.drop k) notices = _
    rw [List.take_append_drop]
  cases run : ClassFile.read ⟨used.take k, notices⟩ with
  | ok d s =>
      -- what is missing would be left unread by the class as well
      have longer := definite_read.value run (used.drop k)
      rw [whole, alone] at longer
      injection longer with _ states
      have none : [] = s.rest ++ used.drop k := congrArg Reading.rest states
      have missing := congrArg List.length none
      rw [List.length_append, List.length_drop, List.length_nil] at missing
      omega
  | error e s =>
      by_cases ended : e = .endOfInput
      · exact ⟨s, by rw [ended]⟩
      · -- any other error would be that of the class as well
        have longer := (definite_read.refusal run ended).2 (used.drop k)
        rw [whole, alone] at longer
        cases longer

/-- A class that is read takes up the same bytes whatever stands behind them, and is read from no
fewer.  If an input is refused for another reason than its end, the reason is one of three, and it
stays the same whatever more there is. -/
theorem read_definite (input : Bytes) (notices : Array Notice) :
    (∀ c rest noticed, ClassFile.read ⟨input, notices⟩ = .ok c ⟨rest, noticed⟩ →
      ∃ used, input = used ++ rest ∧
        (∀ more, ClassFile.read ⟨used ++ more, notices⟩ = .ok c ⟨more, noticed⟩) ∧
        ∀ k < used.length, ∃ s,
          ClassFile.read ⟨input.take k, notices⟩ = .error .endOfInput s) ∧
    (∀ e s, ClassFile.read ⟨input, notices⟩ = .error e s → e ≠ .endOfInput →
      ((∃ found, e = .badMagic found) ∨ (∃ number, e = .unknownTag number) ∨ e = .malformedText) ∧
        ∀ more, ClassFile.read ⟨input ++ more, notices⟩ =
          .error e ⟨s.rest ++ more, s.notices⟩) := by
  constructor
  · intro c rest noticed run
    obtain ⟨used, rfl, alone⟩ := read_own_bytes run
    refine ⟨used, rfl, definite_read.value alone, ?_⟩
    intro k short
    rw [List.take_append_of_le_length (Nat.le_of_lt short)]
    exact read_take alone short
  · intro e s run other
    obtain ⟨listed, same⟩ := definite_read.refusal run other
    refine ⟨?_, same⟩
    cases listed with
    | magic found => exact .inl ⟨found, rfl⟩
    | tag number => exact .inr (.inl ⟨number, rfl⟩)
    | text => exact .inr (.inr rfl)

/-- A class without constants but the text `NestHost`, which names an attribute of three bytes where
two are expected. -/
def overlongHost : Bytes :=
  [0xCA, 0xFE, 0xBA, 0xBE, 0x00, 0x00, 0x00, 0x37, 0x00, 0x02, 0x01, 0x00, 0x08, 0x4E, 0x65, 0x73,
    0x74, 0x48, 0x6F, 0x73, 0x74, 0x00, 0x21, 0x00, 0x00, 0x00, 0x00, 0x00, 0x00, 0x00, 0x00, 0x00,
    0x00, 0x00, 0x01, 0x00, 0x01, 0x00, 0x00, 0x00, 0x03, 0x00, 0x02, 0x2A]

/-- The second input ends behind the number 2, which no kind of constant has. -/
theorem read_definite_overlongHost :
    (∃ c, ClassFile.read ⟨overlongHost ++ [0xFF], #[]⟩ =
        .ok c ⟨[0xFF], #[.trailingBytes .nestHost]⟩ ∧
      ∃ used, overlongHost ++ [0xFF] = used ++ [0xFF] ∧
        (∀ more, ClassFile.read ⟨used ++ more, #[]⟩ =
          .ok c ⟨more, #[.trailingBytes .nestHost]⟩) ∧
        ∀ k < used.length, ∃ s,
          ClassFile.read ⟨(overlongHost ++ [0xFF]).take k, #[]⟩ = .error .endOfInput s) ∧
    ClassFile.read ⟨overlongHost.take 9 ++ [0x02, 0x02], #[]⟩ = .error (.unknownTag 2) ⟨[], #[]⟩ ∧
      ∀ more, ClassFile.read ⟨overlongHost.take 9 ++ [0x02, 0x02] ++ more, #[]⟩ =
        .error (.unknownTag 2) ⟨more, #[]⟩ := by
  have run : ClassFile.read ⟨overlongHost ++ [0xFF], #[]⟩ =
      .ok ⟨0, 0x37, ⟨#[.utf8 "NestHost"]⟩, ⟨0x21⟩, 0, 0, [], [], [],
        [⟨1, .raw [0x00, 0x02, 0x2A]⟩]⟩ ⟨[0xFF], #[.trailingBytes .nestHost]⟩ := by
    rfl
  have refused : ClassFile.read ⟨overlongHost.take 9 ++ [0x02, 0x02], #[]⟩ =
      .error (.unknownTag 2) ⟨[], #[]⟩ := by
    rfl
  refine ⟨⟨_, run, (read_definite _ _).1 _ _ _ run⟩, refused, ?_⟩
  exact ((read_definite _ _).2 _ _ refused nofun).2

end ClassFile

end JvmClass
