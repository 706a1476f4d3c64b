import JvmClass.Proofs.Pool.Constants
import JvmClass.Proofs.Text.Grammar

/-!
# JvmClass.Proofs.Pool.Texts — which string constants are read.

A string constant states the size of its payload, so whatever the payload holds, reading goes on
behind it.  The payload alone decides whether it is taken or refused: `Entry.read_textBytes` gives
the result for every payload, and `Entry.read_texts` puts it in terms of the grammar of the payload.
-/

namespace JvmClass

open Writer

namespace Entry

/-- The bytes of a string constant with the given payload. -/
def textBytes (payload : Bytes) : Bytes :=
  Tag.utf8.number :: (Bytes.ofWord16 (.ofNat payload.length) ++ payload)

/-- All of a payload is taken, and then it is decoded or refused. -/
theorem read_textBytes {payload : Bytes} (short : payload.length ≤ 65535) (rest : Bytes) :
    Entry.read (textBytes payload ++ rest) =
      match Text.decode payload with
      | some s => .ok (.utf8 s) rest
      | none => .error .malformedText rest := by
  have size : Decoder.word16 (.ofWord16 (.ofNat payload.length) ++ (payload ++ rest)) =
      .ok (.ofNat payload.length) (payload ++ rest) := Decoder.word16_eq_ok_iff.mpr rfl
  have taken : Decoder.take (UInt16.ofNat payload.length).toNat (payload ++ rest) =
      .ok payload rest := by
    rw [Decoder.take_eq_ok_iff]
    exact ⟨rfl, (UInt16.toNat_ofNat_of_lt (Nat.lt_succ_of_le short)).symm⟩
  have text : readText (.ofWord16 (.ofNat payload.length) ++ (payload ++ rest)) =
      match Text.decode payload with
      | some s => .ok s rest
      | none => .error .malformedText rest := by
    unfold readText
    simp only [bind, EStateM.bind, size, taken]
    cases Text.decode payload <;> rfl
  rw [textBytes, List.cons_append, List.append_assoc]
  show (Entry.utf8 <$> readText) _ = _
  simp only [Functor.map, EStateM.map, text]
  cases Text.decode payload <;> rfl

/-- What is written for a text has the stored form of the text for its payload. -/
theorem emits_textBytes {s : String} (short : (Text.encode s).length ≤ 65535) :
    Emits (Entry.utf8 s).write (textBytes (Text.encode s)) :=
  (emits_write_iff rfl).mpr ⟨_, emits_writeText_iff.mpr ⟨Nat.lt_succ_of_le short, rfl⟩, rfl⟩

/-- A text whose stored form fits its size field is written and read back.  A payload is read as a
text just if it is plain UTF-8 or in the stored form throughout, and the text is the one that it
spells.  Any other payload is refused, those with one of the known faults among them, and reading
stops right behind it. -/
theorem read_texts :
    (∀ (s : String) (rest : Bytes), (Text.encode s).length ≤ 65535 →
      ∃ w, Emits (Entry.utf8 s).write w ∧ Entry.read (w ++ rest) = .ok (.utf8 s) rest) ∧
    ∀ payload rest : Bytes, payload.length ≤ 65535 →
      (∀ s, Entry.read (textBytes payload ++ rest) = .ok (.utf8 s) rest ↔
        payload = Text.utf8 s ∨ payload = Text.encode s) ∧
      ((∃ e rest', Entry.read (textBytes payload ++ rest) = .ok e rest') ↔
        Text.MadeOf Text.PlainSequence payload ∨ Text.MadeOf Text.StoredSequence payload) ∧
      (¬ (Text.MadeOf Text.PlainSequence payload ∨ Text.MadeOf Text.StoredSequence payload) →
        Entry.read (textBytes payload ++ rest) = .error .malformedText rest) ∧
      (Text.Faulty payload →
        Entry.read (textBytes payload ++ rest) = .error .malformedText rest) := by
  refine ⟨fun s rest short => ⟨_, emits_textBytes short, ?_⟩, fun payload rest short => ?_⟩
  · rw [read_textBytes short, Text.decode_encode]
  · rw [← Text.exists_decode_iff, read_textBytes short]
    simp only [← Text.decode_eq_some_iff]
    -- what is left to compare is the decoded payload with itself
    cases held : Text.decode payload with
    | some s =>
        refine ⟨fun t => by simp, ⟨fun _ => ⟨s, rfl⟩, fun _ => ⟨_, _, rfl⟩⟩, fun none => ?_,
          fun faulty => ?_⟩
        · exact absurd ⟨s, rfl⟩ none
        · rw [Text.decode_of_faulty faulty] at held
          cases held
    | none => exact ⟨fun t => ⟨nofun, nofun⟩, ⟨nofun, nofun⟩, fun _ => rfl, fun _ => rfl⟩

/-- Two surrogates that would make a pair in the other order. -/
def swappedPair : Bytes :=
  [0x61, 0xED, 0xB8, 0x80, 0xED, 0xA0, 0xBD]

theorem read_texts_swappedPair :
    (Text.encode "\x00😀").length ≤ 65535 ∧
      (∃ w, Emits (Entry.utf8 "\x00😀").write w ∧
        Entry.read (w ++ [0xFF]) = .ok (.utf8 "\x00😀") [0xFF]) ∧
      swappedPair.length ≤ 65535 ∧ Text.Faulty swappedPair ∧
      Entry.read (textBytes swappedPair ++ [0xFF]) = .error .malformedText [0xFF] := by
  have short : (Text.encode "\x00😀").length ≤ 65535 := by decide
  have small : swappedPair.length ≤ 65535 := by decide
  have low : Text.Low [0xED, 0xB8, 0x80] := .mk ⟨by decide, by decide⟩ ⟨by decide, by decide⟩
  have faulty : Text.Faulty swappedPair := by
    have split : swappedPair = [0x61] ++ ([0xED, 0xB8, 0x80] ++ [0xED, 0xA0, 0xBD]) := rfl
    refine .loneLow split low fun x high opens => ?_
    obtain ⟨second, third⟩ := high
    exact absurd opens.length_le (by simp)
  exact ⟨short, read_texts.1 _ _ short, small, faulty, (read_texts.2 _ _ small).2.2.2 faulty⟩

end Entry

end JvmClass
