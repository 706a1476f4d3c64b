import JvmClass.Proofs.Bytes.Emission

/-!
# JvmClass.Proofs.Bytes.Refusal — when a writer refuses, and what it names.

An output without bound takes all bytes, so a plain writer fails on it for one reason only: a count
does not fit its field.  `Refuses w o` says that it does so, and that `o` is what the error carries.
Each plain writer either emits a text or refuses a count (`emits_or_refuses`), and a sequence
refuses what the first of its steps that does not emit refuses.
-/

namespace JvmClass

namespace Writer

/-- The step fails on an output without bound, by refusing this count. -/
def Refuses (w : Writer Unit) (o : Overflow) : Prop :=
  ∃ s, w .unbounded = .error (.overflow o) s

/-- The step succeeds on an output without bound. -/
def Succeeds (w : Writer Unit) : Prop :=
  ∃ bs, Emits w bs

theorem not_refuses_bytes {bs : Bytes} {o : Overflow} : ¬ Refuses (bytes bs) o := by
  rintro ⟨_, h⟩
  cases h

theorem refuses_refusal_iff {bs : Bytes} {o o' : Overflow} :
    Refuses (bytes bs >>= fun _ => throw (.overflow o')) o ↔ o = o' := by
  constructor
  · rintro ⟨_, h⟩
    cases h
    rfl
  · rintro rfl
    exact ⟨_, rfl⟩

section Plain

variable {w w' : Writer Unit} {o : Overflow}

theorem emits_or_refuses [plain : Plain w] : Succeeds w ∨ ∃ o, Refuses w o := by
  rcases plain.shape with ⟨bs, rfl⟩ | ⟨bs, o, rfl⟩
  · exact .inl ⟨bs, emits_bytes_iff.mpr rfl⟩
  · exact .inr ⟨o, refuses_refusal_iff.mpr rfl⟩

theorem Refuses.not_succeeds (h : Refuses w o) : ¬ Succeeds w := by
  rintro ⟨bs, written⟩
  obtain ⟨s, refused⟩ := h
  cases written.symm.trans refused

/-- Nothing but the refusal of a count makes a plain writer fail. -/
theorem exists_error_iff [plain : Plain w] :
    (∃ e s, w .unbounded = .error e s) ↔ ∃ o, Refuses w o := by
  constructor
  · rintro ⟨e, s, failed⟩
    rcases emits_or_refuses (w := w) with ⟨bs, written⟩ | refused
    · cases written.symm.trans failed
    · exact refused
  · rintro ⟨o, s, refused⟩
    exact ⟨_, s, refused⟩

/-! ## Sequences -/

/-- A sequence refuses what its first step refuses, or its second if the first succeeds. -/
theorem refuses_bind_iff [first : Plain w] [second : Plain w'] :
    Refuses (w >>= fun _ => w') o ↔ Refuses w o ∨ Succeeds w ∧ Refuses w' o := by
  rcases first.shape with ⟨a, rfl⟩ | ⟨a, o', rfl⟩
  · have succeeds : Succeeds (bytes a) := ⟨a, emits_bytes_iff.mpr rfl⟩
    rw [or_iff_right not_refuses_bytes, and_iff_right succeeds]
    rcases second.shape with ⟨b, rfl⟩ | ⟨b, o', rfl⟩
    · rw [← bytes_append]
      exact ⟨fun h => absurd h not_refuses_bytes, fun h => absurd h not_refuses_bytes⟩
    · rw [← bind_assoc, ← bytes_append, refuses_refusal_iff, refuses_refusal_iff]
  · -- the second step is not reached
    have fails : ¬ Succeeds (bytes a >>= fun _ => throw (.overflow o')) :=
      (refuses_refusal_iff.mpr rfl).not_succeeds
    rw [bind_assoc, or_iff_left fun h => fails h.1, refuses_refusal_iff]
    exact refuses_refusal_iff

theorem refuses_bind_iff_of_succeeds [Plain w] [Plain w'] (h : Succeeds w) :
    Refuses (w >>= fun _ => w') o ↔ Refuses w' o := by
  rw [refuses_bind_iff, and_iff_right h, or_iff_right fun refused => refused.not_succeeds h]

end Plain

/-! ## Words and counts -/

theorem succeeds_bytes (bs : Bytes) : Succeeds (bytes bs) := ⟨bs, emits_bytes_iff.mpr rfl⟩

theorem succeeds_byte (b : UInt8) : Succeeds (byte b) := succeeds_bytes [b]

theorem succeeds_word16 (w : UInt16) : Succeeds (word16 w) := succeeds_bytes _

theorem succeeds_word32 (w : UInt32) : Succeeds (word32 w) := succeeds_bytes _

theorem not_refuses_pure {o : Overflow} : ¬ Refuses (pure ()) o := by
  rw [← bytes_nil]
  exact not_refuses_bytes

theorem refuses_count16_iff {n : Nat} {o : Overflow} :
    Refuses (count16 n) o ↔ 0x10000 ≤ n ∧ o = ⟨n⟩ := by
  unfold count16
  split
  · rename_i small
    exact ⟨fun h => absurd h not_refuses_bytes, fun h => absurd h.1 (Nat.not_le.mpr small)⟩
  · rename_i large
    rw [and_iff_right (Nat.not_lt.mp large)]
    have behindNothing : (bytes [] >>= fun _ => throw (.overflow ⟨n⟩) : Writer Unit) =
        throw (.overflow ⟨n⟩) := by
      rw [bytes_nil, pure_bind]
    rw [← behindNothing, refuses_refusal_iff]

theorem succeeds_count16_iff {n : Nat} : Succeeds (count16 n) ↔ n < 0x10000 := by
  constructor
  · rintro ⟨_, h⟩
    exact (emits_count16_iff.mp h).1
  · exact fun small => ⟨_, emits_count16_iff.mpr ⟨small, rfl⟩⟩

end Writer

end JvmClass
