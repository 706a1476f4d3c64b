import JvmClass.Error
import JvmClass.Bytes.Word

/-!
# JvmClass.Bytes.Decoder — taking values off the front of the input.

A decoder is a step on the bytes still to be read.  An error keeps the bytes that were left when it
arose, so that reading can go on behind a constant that was refused.  `repeated` runs a step a given
number of times and collects its results in order; it serves every table of the format.
-/

namespace JvmClass

/-- A step that takes a value off the front of the input. -/
abbrev Decoder := EStateM ReadError Bytes

/-- Runs a step `n` times.  The first error ends the run. -/
def repeated {ε σ α : Type} (step : EStateM ε σ α) (n : Nat) : EStateM ε σ (List α) :=
  go n []
where
  /-- Runs the step `n` times, where `done` holds the earlier results, last first. -/
  go : Nat → List α → EStateM ε σ (List α)
    | 0, done, s => .ok done.reverse s
    | n + 1, done, s =>
      match step s with
      | .ok a s => go n (a :: done) s
      | .error e s => .error e s

theorem repeated_go_eq {ε σ α : Type} (step : EStateM ε σ α) (n : Nat) (done : List α) :
    repeated.go step n done =
      (Functor.map (done.reverse ++ ·) (repeated.go step n []) : EStateM ε σ (List α)) := by
  induction n generalizing done with
  | zero =>
    funext s
    simp [repeated.go, Functor.map, EStateM.map]
  | succ n ih =>
    funext s
    simp only [repeated.go, Functor.map, EStateM.map]
    cases step s with
    | error e s => rfl
    | ok a s =>
      simp only
      rw [ih (a :: done), ih [a]]
      simp only [Functor.map, EStateM.map]
      cases repeated.go step n [] s <;> simp

@[simp] theorem repeated_zero {ε σ α : Type} (step : EStateM ε σ α) :
    repeated step 0 = pure [] := rfl

/-- A run is its first step and the run of the others. -/
theorem repeated_succ {ε σ α : Type} (step : EStateM ε σ α) (n : Nat) :
    repeated step (n + 1) = (do
      let a ← step
      let rest ← repeated step n
      pure (a :: rest)) := by
  funext s
  simp only [repeated, repeated.go, bind, EStateM.bind, pure, EStateM.pure]
  cases step s with
  | error e s => rfl
  | ok a s =>
    simp only
    rw [repeated_go_eq]
    simp only [Functor.map, EStateM.map]
    cases repeated.go step n [] s <;> rfl

namespace Decoder

/-- One byte. -/
def byte : Decoder UInt8
  | [] => .error .endOfInput []
  | b :: rest => .ok b rest

/-- A big-endian word of two bytes. -/
def word16 : Decoder UInt16 := do
  let high ← byte
  let low ← byte
  pure (Bytes.word16 high low)

/-- A big-endian word of four bytes. -/
def word32 : Decoder UInt32 := do
  let high ← word16
  let low ← word16
  pure (Bytes.word32 high low)

/-- A big-endian word of eight bytes. -/
def word64 : Decoder UInt64 := do
  let high ← word32
  let low ← word32
  pure (Bytes.word64 high low)

/-- The next `n` bytes. -/
def take (n : Nat) : Decoder Bytes := fun input =>
  match Bytes.splitExact n input with
  | some (taken, rest) => .ok taken rest
  | none => .error .endOfInput input

/-- All bytes that are left. -/
def remaining : Decoder Bytes := fun input =>
  .ok input []

/-! ## What was read

A decoder of words succeeds exactly on the bytes of the word, and leaves what stood behind them. -/

theorem bind_eq_ok_iff {ε σ α β : Type} {d : EStateM ε σ α} {f : α → EStateM ε σ β} {s s' : σ}
    {b : β} :
    (d >>= f) s = .ok b s' ↔ ∃ a middle, d s = .ok a middle ∧ f a middle = .ok b s' := by
  simp only [bind, EStateM.bind]
  cases d s with
  | ok a middle =>
    constructor
    · exact fun h => ⟨a, middle, rfl, h⟩
    · rintro ⟨_, _, h, hf⟩
      cases h
      exact hf
  | error e middle => simp

theorem map_eq_ok_iff {ε σ α β : Type} {d : EStateM ε σ α} {f : α → β} {s s' : σ} {b : β} :
    (f <$> d) s = .ok b s' ↔ ∃ a, d s = .ok a s' ∧ f a = b := by
  simp only [Functor.map, EStateM.map]
  cases d s with
  | ok a middle =>
    constructor
    · intro h
      cases h
      exact ⟨a, rfl, rfl⟩
    · rintro ⟨_, h, rfl⟩
      cases h
      rfl
  | error e middle => simp

theorem byte_eq_ok_iff {input rest : Bytes} {b : UInt8} :
    byte input = .ok b rest ↔ input = b :: rest := by
  cases input with
  | nil => simp [byte]
  | cons c input => simp [byte]

theorem word16_eq_ok_iff {input rest : Bytes} {w : UInt16} :
    word16 input = .ok w rest ↔ input = Bytes.ofWord16 w ++ rest := by
  simp only [word16, bind_eq_ok_iff, byte_eq_ok_iff]
  constructor
  · rintro ⟨high, _, rfl, low, _, rfl, h⟩
    cases h
    rw [Bytes.ofWord16_word16]
    rfl
  · intro h
    refine ⟨_, _, h, _, _, rfl, ?_⟩
    rw [Bytes.word16_halves]
    rfl

theorem word32_eq_ok_iff {input rest : Bytes} {w : UInt32} :
    word32 input = .ok w rest ↔ input = Bytes.ofWord32 w ++ rest := by
  simp only [word32, bind_eq_ok_iff, word16_eq_ok_iff]
  constructor
  · rintro ⟨high, _, rfl, low, _, rfl, h⟩
    cases h
    rw [Bytes.ofWord32_word32, List.append_assoc]
  · rintro rfl
    refine ⟨_, _, by rw [Bytes.ofWord32, List.append_assoc], _, _, rfl, ?_⟩
    rw [Bytes.word32_halves]
    rfl

theorem word64_eq_ok_iff {input rest : Bytes} {w : UInt64} :
    word64 input = .ok w rest ↔ input = Bytes.ofWord64 w ++ rest := by
  simp only [word64, bind_eq_ok_iff, word32_eq_ok_iff]
  constructor
  · rintro ⟨high, _, rfl, low, _, rfl, h⟩
    cases h
    rw [Bytes.ofWord64_word64, List.append_assoc]
  · rintro rfl
    refine ⟨_, _, by rw [Bytes.ofWord64, List.append_assoc], _, _, rfl, ?_⟩
    rw [Bytes.word64_halves]
    rfl

theorem take_eq_ok_iff {n : Nat} {input taken rest : Bytes} :
    take n input = .ok taken rest ↔ input = taken ++ rest ∧ taken.length = n := by
  rw [← Bytes.splitExact_eq_some_iff, take]
  cases Bytes.splitExact n input with
  | none => simp
  | some parts => simp [Prod.ext_iff]

end Decoder

end JvmClass
