import JvmClass.Proofs.Bytes.Reading

/-!
# JvmClass.Proofs.Bytes.Definite — what bytes behind the input can change.

A reader that runs out of input might go on if there were more of it.  Every other outcome is
final: a value or an error stays what it is however many bytes follow, and these bytes are left
behind those that were left before.  `Definite` says so of a step.  It also lists the causes other
than the end of the input for which the step may stop, so that what cannot be such a cause is seen
not to escape.

Steps are put together from definite ones only, so each law below is about one way to do that.  The
exception is `Payload.contained`: it reads a payload apart from what follows, so it is definite
whatever the reader of the payload does.
-/

namespace JvmClass

/-- A state to whose input bytes can be added behind the others. -/
class Extensible (σ : Type) where
  extend : σ → Bytes → σ

open Extensible

instance : Extensible Bytes := ⟨fun input more => input ++ more⟩

instance : Extensible Reading := ⟨fun s more => { s with rest := s.rest ++ more }⟩

/-- The step gives the same result when more bytes follow, unless the input ends too early for it.
It stops for no other causes than these. -/
structure Definite {σ α : Type} [Extensible σ] (Causes : ReadError → Prop)
    (r : EStateM ReadError σ α) : Prop where
  value : ∀ {s s' : σ} {a : α}, r s = .ok a s' → ∀ more, r (extend s more) = .ok a (extend s' more)
  refusal : ∀ {s s' : σ} {e : ReadError}, r s = .error e s' → e ≠ .endOfInput →
    Causes e ∧ ∀ more, r (extend s more) = .error e (extend s' more)

namespace Definite

variable {σ α β : Type} [Extensible σ] {Causes : ReadError → Prop}

/-! ## Steps put together -/

theorem pure (a : α) : Definite Causes (Pure.pure a : EStateM ReadError σ α) where
  value run _ := by
    cases run
    rfl
  refusal run := by cases run

theorem fail {e : ReadError} (listed : Causes e) :
    Definite Causes (throw e : EStateM ReadError σ α) where
  value run := by cases run
  refusal run _ := by
    cases run
    exact ⟨listed, fun _ => rfl⟩

theorem bind {r : EStateM ReadError σ α} {f : α → EStateM ReadError σ β} (hr : Definite Causes r)
    (hf : ∀ a, Definite Causes (f a)) : Definite Causes (r >>= f) := by
  constructor
  · intro s s' b run more
    change EStateM.bind r f s = _ at run
    show EStateM.bind r f (extend s more) = _
    unfold EStateM.bind at run ⊢
    -- both steps succeed, and the second finds the bytes that the first left
    cases first : r s with
    | error e s₁ =>
        rw [first] at run
        cases run
    | ok a s₁ =>
        rw [first] at run
        rw [hr.value first more]
        exact (hf a).value run more
  · intro s s' e run other
    change EStateM.bind r f s = _ at run
    show _ ∧ ∀ more, EStateM.bind r f (extend s more) = _
    unfold EStateM.bind at run ⊢
    -- either the first step is refused, or the second is behind the value of the first
    cases first : r s with
    | error e₁ s₁ =>
        rw [first] at run
        cases run
        obtain ⟨listed, same⟩ := hr.refusal first other
        exact ⟨listed, fun more => by rw [same more]⟩
    | ok a s₁ =>
        rw [first] at run
        obtain ⟨listed, same⟩ := (hf a).refusal run other
        exact ⟨listed, fun more => by rw [hr.value first more]; exact same more⟩

theorem map {r : EStateM ReadError σ α} (f : α → β) (hr : Definite Causes r) :
    Definite Causes (f <$> r) := by
  rw [map_eq_pure_bind]
  exact hr.bind fun a => .pure (f a)

theorem seq {r : EStateM ReadError σ (α → β)} {t : EStateM ReadError σ α}
    (hr : Definite Causes r) (ht : Definite Causes t) : Definite Causes (r <*> t) := by
  rw [seq_eq_bind_map]
  exact hr.bind fun f => ht.map f

theorem repeated {r : EStateM ReadError σ α} (hr : Definite Causes r) (n : Nat) :
    Definite Causes (JvmClass.repeated r n) := by
  induction n with
  | zero =>
      rw [repeated_zero]
      exact .pure []
  | succ n ih =>
      rw [repeated_succ]
      exact hr.bind fun a => ih.bind fun rest => .pure (a :: rest)

theorem lift_extend (d : Decoder α) (s : Reading) (more : Bytes) :
    Reader.lift d (extend s more) =
      match d (extend s.rest more) with
      | .ok a rest => .ok a { s with rest }
      | .error e rest => .error e { s with rest } := rfl

/-- A decoder does not look at the notices. -/
theorem lift {d : Decoder α} (hd : Definite Causes d) : Definite Causes (Reader.lift d) := by
  constructor
  · intro s s' a run more
    unfold Reader.lift at run
    cases inner : d s.rest with
    | error e rest =>
        rw [inner] at run
        cases run
    | ok b rest =>
        rw [inner] at run
        cases run
        rw [lift_extend, hd.value inner more]
        rfl
  · intro s s' e run other
    unfold Reader.lift at run
    cases inner : d s.rest with
    | error e₁ rest =>
        rw [inner] at run
        cases run
        obtain ⟨listed, same⟩ := hd.refusal inner other
        refine ⟨listed, fun more => ?_⟩
        rw [lift_extend, same more]
        rfl
    | ok b rest =>
        rw [inner] at run
        cases run

/-! ## Words, stretches and tables -/

theorem byte : Definite Causes Decoder.byte := by
  constructor
  · intro s s' b run more
    rw [Decoder.byte_eq_ok_iff] at run ⊢
    rw [run]
    rfl
  · intro s s' e run other
    cases s with
    | nil =>
        cases run
        exact absurd rfl other
    | cons b rest => cases run

theorem word16 : Definite Causes Decoder.word16 :=
  byte.bind fun high => byte.bind fun low => .pure (Bytes.word16 high low)

theorem word32 : Definite Causes Decoder.word32 :=
  word16.bind fun high => word16.bind fun low => .pure (Bytes.word32 high low)

theorem word64 : Definite Causes Decoder.word64 :=
  word32.bind fun high => word32.bind fun low => .pure (Bytes.word64 high low)

theorem take (n : Nat) : Definite Causes (Decoder.take n) := by
  constructor
  · intro s s' taken run more
    rw [Decoder.take_eq_ok_iff] at run ⊢
    obtain ⟨split, size⟩ := run
    refine ⟨?_, size⟩
    rw [split]
    exact List.append_assoc taken s' more
  · intro s s' e run other
    -- it stops for the want of bytes only
    unfold Decoder.take at run
    split at run
    · cases run
    · cases run
      exact absurd rfl other

theorem table16 {d : Decoder α} (hd : Definite Causes d) : Definite Causes (Decoder.table16 d) :=
  word16.bind fun count => hd.repeated count.toNat

theorem readerTable16 {r : Reader α} (hr : Definite Causes r) :
    Definite Causes (Reader.table16 r) :=
  word16.lift.bind fun count => hr.repeated count.toNat

/-! ## Payloads -/

/-- What a payload is read from is fixed before it is read, so nothing that its reader does depends
on the bytes behind, and nothing that stops its reader stops this step. -/
theorem contained (name : AttributeName) (bytes : Bytes) (payload : Reader Payload) :
    Definite Causes (Payload.contained name bytes payload) := by
  constructor
  · intro s s' p run more
    have apart : (extend s more).notices = s.notices := rfl
    unfold Payload.contained at run ⊢
    rw [apart]
    -- what is kept and noticed is settled by the bytes of the payload
    cases inner : payload ⟨bytes, s.notices⟩ with
    | error cause t =>
        rw [inner] at run
        cases run
        rfl
    | ok q t =>
        obtain ⟨left, notices⟩ := t
        rw [inner] at run
        cases left with
        | nil =>
            cases run
            rfl
        | cons b left =>
            cases run
            rfl
  · intro s s' e run
    unfold Payload.contained at run
    split at run <;> cases run

end Definite

end JvmClass
