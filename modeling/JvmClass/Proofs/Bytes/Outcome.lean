import JvmClass.Proofs.Bytes.Emission

/-!
# JvmClass.Proofs.Bytes.Outcome — what a writer leaves behind, whether or not it succeeds.

A writer that fails keeps what it has handed over, so a run has two sides, its result and the bytes
in the output.  `Outcome` holds both.  For plain writers the outcome on an output without bound
settles all others: an output that takes only so many bytes receives the front of the same bytes
(`outcome_bounded`), wherever the cut falls.  A sequence leaves what its steps leave up to the first
that fails (`outcome_forM`).
-/

namespace JvmClass

/-- The result of a run, and the bytes in the output after it. -/
structure Outcome where
  result : Except WriteError Unit
  bytes : Bytes

namespace Outcome

/-- What becomes of a run if the output takes only so many bytes.  Bytes that do not fit are a
failure that comes before any other. -/
def truncated (limit : Nat) (o : Outcome) : Outcome :=
  if o.bytes.length ≤ limit then o else ⟨.error .outputFull, o.bytes.take limit⟩

/-- Two runs one after the other.  The second takes place only if the first has succeeded. -/
def followedBy (first second : Outcome) : Outcome :=
  match first.result with
  | .ok () => ⟨second.result, first.bytes ++ second.bytes⟩
  | .error e => ⟨.error e, first.bytes⟩

/-- Any number of runs, up to the first that fails. -/
def joined (runs : List Outcome) : Outcome :=
  runs.foldr followedBy ⟨.ok (), []⟩

theorem joined_cons (o : Outcome) (runs : List Outcome) :
    joined (o :: runs) = o.followedBy (joined runs) := rfl

end Outcome

namespace Writer

/-- What a writer leaves behind in an output. -/
def outcome (w : Writer Unit) (output : Sink) : Outcome :=
  ⟨(w.run output).1, (w.run output).2.written.toList⟩

/-- A writer that hands over bytes succeeds and leaves these bytes. -/
theorem outcome_bytes (bs : Bytes) : (bytes bs).outcome .unbounded = ⟨.ok (), bs⟩ := by
  simp [outcome, run, Sink.unbounded, bytes_unbounded]

theorem outcome_refusal (bs : Bytes) (o : Overflow) :
    (bytes bs >>= fun _ => throw (.overflow o)).outcome .unbounded =
      ⟨.error (.overflow o), bs⟩ := by
  show Outcome.mk (.error (.overflow o)) ((#[] : Array UInt8) ++ bs).toList = _
  simp

theorem emits_iff_outcome {w : Writer Unit} [plain : Plain w] {bs : Bytes} :
    Emits w bs ↔ w.outcome .unbounded = ⟨.ok (), bs⟩ := by
  rcases plain.shape with ⟨a, rfl⟩ | ⟨a, o, rfl⟩
  · rw [emits_bytes_iff, outcome_bytes]
    simp [eq_comm]
  · rw [outcome_refusal]
    simp [not_emits_refusal]

/-! ## Outputs that take only so many bytes -/

theorem bytes_bounded (bs : Bytes) (limit : Nat) :
    bytes bs (.bounded limit) =
      if bs.length ≤ limit then .ok () ⟨bs.toArray, some limit⟩
      else .error .outputFull ⟨(bs.take limit).toArray, some limit⟩ := by
  simp [bytes, Sink.bounded]

theorem outcome_bytes_bounded (bs : Bytes) (limit : Nat) :
    (bytes bs).outcome (.bounded limit) = Outcome.truncated limit ⟨.ok (), bs⟩ := by
  unfold outcome run Outcome.truncated
  rw [bytes_bounded]
  by_cases room : bs.length ≤ limit
  · simp [room]
  · simp [room]

theorem outcome_refusal_bounded (bs : Bytes) (o : Overflow) (limit : Nat) :
    (bytes bs >>= fun _ => throw (.overflow o)).outcome (.bounded limit) =
      Outcome.truncated limit ⟨.error (.overflow o), bs⟩ := by
  unfold outcome run Outcome.truncated
  simp only [bind, EStateM.bind]
  rw [bytes_bounded]
  -- the count is refused only if the bytes in front of it have found room
  by_cases room : bs.length ≤ limit
  · rw [if_pos room, if_pos room]
    rfl
  · simp [room]

/-- An output that takes only so many bytes receives the front of what is written to one without
bound. -/
theorem outcome_bounded (w : Writer Unit) [plain : Plain w] (limit : Nat) :
    w.outcome (.bounded limit) = (w.outcome .unbounded).truncated limit := by
  rcases plain.shape with ⟨bs, rfl⟩ | ⟨bs, o, rfl⟩
  · rw [outcome_bytes, outcome_bytes_bounded]
  · rw [outcome_refusal, outcome_refusal_bounded]

/-! ## Sequences -/

theorem outcome_pure : (pure () : Writer Unit).outcome .unbounded = ⟨.ok (), []⟩ := by
  rw [← bytes_nil]
  exact outcome_bytes []

theorem outcome_bind (w w' : Writer Unit) [first : Plain w] [second : Plain w'] :
    (w >>= fun _ => w').outcome .unbounded =
      (w.outcome .unbounded).followedBy (w'.outcome .unbounded) := by
  rcases first.shape with ⟨a, rfl⟩ | ⟨a, o, rfl⟩
  · rcases second.shape with ⟨b, rfl⟩ | ⟨b, o, rfl⟩
    · rw [← bytes_append, outcome_bytes, outcome_bytes, outcome_bytes]
      rfl
    · rw [← bind_assoc, ← bytes_append, outcome_refusal, outcome_refusal, outcome_bytes]
      rfl
  · -- the second step is not reached
    rw [bind_assoc, outcome_refusal]
    exact outcome_refusal a o

/-- Steps that are taken one after the other leave what each of them leaves on its own, up to the
first that fails. -/
theorem outcome_forM {α : Type} (f : α → Writer Unit) [each : ∀ a, Plain (f a)] (as : List α) :
    (as.forM f).outcome .unbounded = .joined (as.map fun a => (f a).outcome .unbounded) := by
  induction as with
  | nil => exact outcome_pure
  | cons a as ih =>
      show (f a >>= fun _ => as.forM f).outcome .unbounded = _
      rw [outcome_bind, ih, List.map_cons, Outcome.joined_cons]

end Writer

end JvmClass
