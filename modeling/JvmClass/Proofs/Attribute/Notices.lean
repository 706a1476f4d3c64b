import JvmClass.Proofs.Attribute.Counting

/-!
# JvmClass.Proofs.Attribute.Notices — when an attribute is read without a notice.

The reader keeps the bytes of a payload that it cannot make sense of, and leaves a notice.  So the
notices should tell whether a payload was given up somewhere in the tree, and they do: there are
none just if each attribute whose name announces a payload carries one (`Attribute.silent_read`).

Neither direction can be read off the steps one by one.  A body may be given up after some of its
attributes have left their notices; these notices stay, although the attributes are gone.  But then
the body itself is kept raw, and that is noticed too.  `Silent` is put so that this argument is made
once, in `Silent.contained`: it is about the value that a step gives in the end, and what a failing
step has left behind need not be known.
-/

namespace JvmClass

/-! ## Silent steps -/

/-- A decoder takes bytes and leaves the notices alone. -/
theorem Reader.lift_eq_ok_iff {α : Type} {d : Decoder α} {s s' : Reading} {a : α} :
    Reader.lift d s = .ok a s' ↔ ∃ rest, d s.rest = .ok a rest ∧ s' = { s with rest } := by
  unfold Reader.lift
  cases d s.rest with
  | error e rest => exact ⟨nofun, nofun⟩
  | ok b rest =>
      constructor
      · intro run
        cases run
        exact ⟨rest, rfl, rfl⟩
      · rintro ⟨_, taken, rfl⟩
        cases taken
        rfl

/-- Given that there are no notices in front of the step just if `before` holds, there are none
behind it just if `after` holds of its value. -/
def Silent {α : Type} (before : Prop) (r : Reader α) (after : α → Prop) : Prop :=
  ∀ s a s', (s.notices = #[] ↔ before) → r s = .ok a s' → (s'.notices = #[] ↔ after a)

namespace Silent

variable {α β : Type} {before : Prop}

theorem pure {after : α → Prop} {a : α} (same : before ↔ after a) :
    Silent before (Pure.pure a) after := by
  intro s a' s' front run
  cases run
  exact front.trans same

theorem fail (e : ReadError) {after : α → Prop} : Silent before (throw e) after := by
  intro s a s' front run
  cases run

theorem bind {r : Reader α} {f : α → Reader β} {between : α → Prop} {after : β → Prop}
    (hr : Silent before r between) (hf : ∀ a, Silent (between a) (f a) after) :
    Silent before (r >>= f) after := by
  intro s b s' front run
  obtain ⟨a, s₁, first, second⟩ := Decoder.bind_eq_ok_iff.mp run
  exact hf a s₁ b s' (hr s a s₁ front first) second

theorem map (f : α → β) {r : Reader α} {after : β → Prop}
    (hr : Silent before r fun a => after (f a)) : Silent before (f <$> r) after := by
  rw [map_eq_pure_bind]
  exact hr.bind fun a => .pure Iff.rfl

/-- What is to hold behind a step matters for the values only that the step can give. -/
theorem congr {r : Reader α} {after after' : α → Prop} (h : Silent before r after)
    (same : ∀ s a s', r s = .ok a s' → (after a ↔ after' a)) : Silent before r after' := by
  intro s a s' front run
  exact (h s a s' front run).trans (same s a s' run)

/-- A decoder leaves no notice. -/
theorem lift (d : Decoder α) : Silent before (Reader.lift d) fun _ => before := by
  intro s a s' front run
  obtain ⟨rest, -, rfl⟩ := Reader.lift_eq_ok_iff.mp run
  exact front

section Tables

variable {r : Reader α} {Fine : α → Prop}
  (h : ∀ before, Silent before r fun a => before ∧ Fine a)

include h

theorem repeated (n : Nat) (before : Prop) :
    Silent before (JvmClass.repeated r n) fun as => before ∧ ∀ a ∈ as, Fine a := by
  induction n generalizing before with
  | zero =>
      rw [repeated_zero]
      exact .pure (and_iff_left (List.forall_mem_nil Fine)).symm
  | succ n ih =>
      rw [repeated_succ]
      refine (h before).bind fun a => (ih (before ∧ Fine a)).bind fun as => .pure ?_
      rw [List.forall_mem_cons, and_assoc]

theorem table16 (before : Prop) :
    Silent before (Reader.table16 r) fun as => before ∧ ∀ a ∈ as, Fine a :=
  (lift Decoder.word16).bind fun count => repeated h count.toNat before

end Tables

/-- A payload that is kept raw leaves a notice, and hides what became of the steps within it. -/
theorem contained {name : AttributeName} {bytes : Bytes} {payload : Reader Payload}
    {after : Payload → Prop} (h : Silent before payload after)
    (typed : ∀ s p s', payload s = .ok p s' → p.isRaw = false) :
    Silent before (Payload.contained name bytes payload) fun p => p.isRaw = false ∧ after p := by
  intro s p s' front run
  have kept : ∀ (notices : Array Notice) (notice : Notice),
      notices.push notice = #[] ↔ (Payload.raw bytes).isRaw = false ∧ after (.raw bytes) := by
    intro notices notice
    constructor
    · intro empty
      exact absurd empty Array.push_ne_empty
    · intro claimed
      exact Bool.noConfusion claimed.1
  unfold Payload.contained at run
  cases inner : payload ⟨bytes, s.notices⟩ with
  | error cause stopped =>
      rw [inner] at run
      cases run
      exact kept _ _
  | ok q stopped =>
      obtain ⟨left, notices⟩ := stopped
      rw [inner] at run
      cases left with
      | nil =>
          cases run
          exact (h ⟨bytes, s.notices⟩ p ⟨[], notices⟩ front inner).trans
            (and_iff_right (typed _ p _ inner)).symm
      | cons b left =>
          cases run
          exact kept _ _

end Silent

/-! ## Kinds -/

/-- The names that announce a payload are those with rules for references, and that of bodies. -/
theorem AttributeName.isSome_payloadKind?_iff {name : AttributeName} :
    name.payloadKind?.isSome = true ↔ name.hasReferenceRules = true ∨ name = .code := by
  cases name <;> decide

theorem Reader.exists_of_lift_map {α β : Type} {f : α → β} {d : Decoder α} {s s' : Reading} {b : β}
    (run : Reader.lift (f <$> d) s = .ok b s') : ∃ a, f a = b := by
  obtain ⟨rest, taken, -⟩ := lift_eq_ok_iff.mp run
  obtain ⟨a, -, same⟩ := Decoder.map_eq_ok_iff.mp taken
  exact ⟨a, same⟩

namespace Payload

/-- What is read as a payload of some kind is of that kind. -/
theorem kind_of_readWith {levels : Nat} {body : Reader CodeBody} {kind : PayloadKind}
    {s s' : Reading} {p : Payload} (run : readWith levels body kind s = .ok p s') :
    p.kind = kind := by
  cases kind with
  | enclosingMethod =>
      obtain ⟨rest, taken, -⟩ := Reader.lift_eq_ok_iff.mp run
      rw [seq_eq_bind_map] at taken
      obtain ⟨f, middle, first, second⟩ := Decoder.bind_eq_ok_iff.mp taken
      obtain ⟨owner, -, rfl⟩ := Decoder.map_eq_ok_iff.mp first
      obtain ⟨method, -, rfl⟩ := Decoder.map_eq_ok_iff.mp second
      rfl
  | code =>
      obtain ⟨b, -, rfl⟩ := Decoder.map_eq_ok_iff.mp run
      rfl
  | raw =>
      change Reader.lift (raw <$> Decoder.remaining) s = _ at run
      obtain ⟨_, rfl⟩ := Reader.exists_of_lift_map run
      rfl
  | _ =>
      obtain ⟨_, rfl⟩ := Reader.exists_of_lift_map run
      rfl

end Payload

/-! ## Attributes -/

/-- The attribute carries a payload if its name is one with rules for references or that of
bodies. -/
def Attribute.Decoded (pool : Pool) (a : Attribute) : Prop :=
  ∀ name, pool.attributeName? a.name = some name →
    name.hasReferenceRules = true ∨ name = .code → a.payload.isRaw = false

/-- The same of the attribute and of each one in it. -/
def Attribute.AllDecoded (pool : Pool) (a : Attribute) : Prop :=
  ∀ b : Attribute, b = a ∨ b.Inside a → b.Decoded pool

namespace Attribute

variable {pool : Pool} {a : Attribute}

theorem allDecoded_iff :
    a.AllDecoded pool ↔ a.Decoded pool ∧ ∀ b ∈ a.payload.inside, b.AllDecoded pool := by
  constructor
  · intro all
    refine ⟨all a (.inl rfl), fun b mem c here => all c (.inr ?_)⟩
    exact inside_iff.mpr ⟨b, mem, here⟩
  · rintro ⟨first, others⟩ b (rfl | within)
    · exact first
    · obtain ⟨c, mem, here⟩ := inside_iff.mp within
      exact others c mem b here

theorem allDecoded_of_unannounced {index : UInt16} {bytes : Bytes}
    (silent : ∀ name, pool.attributeName? index = some name → name.payloadKind? = none) :
    AllDecoded pool ⟨index, .raw bytes⟩ := by
  refine allDecoded_iff.mpr ⟨fun name named announces => ?_, List.forall_mem_nil _⟩
  rw [← AttributeName.isSome_payloadKind?_iff, silent name named] at announces
  cases announces

/-- Under a name that announces something, being decoded is not to be raw. -/
theorem decoded_iff_of_announced {name : AttributeName} {kind : PayloadKind}
    (named : pool.attributeName? a.name = some name) (announced : name.payloadKind? = some kind) :
    a.Decoded pool ↔ a.payload.isRaw = false := by
  constructor
  · intro decoded
    refine decoded name named (AttributeName.isSome_payloadKind?_iff.mp ?_)
    rw [announced]
    rfl
  · intro typed _ _ _
    exact typed

end Attribute

/-! ## Reading without notices -/

theorem Payload.silent_readWith {levels : Nat} {body : Reader CodeBody} {Fine : Attribute → Prop}
    {before : Prop} (h : Silent before body fun b => before ∧ ∀ a ∈ b.attributes, Fine a)
    (kind : PayloadKind) :
    Silent before (Payload.readWith levels body kind)
      fun p => before ∧ ∀ a ∈ p.inside, Fine a := by
  by_cases isBody : kind = .code
  · rw [isBody]
    exact Silent.map code h
  · have quiet : Silent before (Payload.readWith levels body kind) fun _ => before := by
      cases kind with
      | code => exact absurd rfl isBody
      | raw => exact Silent.lift (raw <$> Decoder.remaining)
      | _ => exact Silent.lift _
    refine quiet.congr fun s p s' run => ?_
    have flat : p.inside = [] := by
      apply inside_of_ne_code
      rw [kind_of_readWith run]
      exact isBody
    rw [flat]
    exact (and_iff_left (List.forall_mem_nil Fine)).symm

theorem Attribute.silent_readWith {pool : Pool} {levels : Nat} {body : Reader CodeBody}
    {before : Prop}
    (h : Silent before body fun b => before ∧ ∀ a ∈ b.attributes, a.AllDecoded pool) :
    Silent before (Attribute.readWith pool (Payload.readWith levels body))
      fun a => before ∧ a.AllDecoded pool := by
  refine (Silent.lift Attribute.readHeader).bind ?_
  rintro ⟨index, bytes⟩
  dsimp only
  cases named : pool.attributeName? index with
  | none =>
      refine .pure (and_iff_left (allDecoded_of_unannounced fun name hit => ?_)).symm
      rw [named] at hit
      cases hit
  | some name =>
      dsimp only
      cases announced : name.payloadKind? with
      | none =>
          refine .pure (and_iff_left (allDecoded_of_unannounced fun name' hit => ?_)).symm
          rw [named] at hit
          cases hit
          exact announced
      | some kind =>
          have typed : ∀ s p s', Payload.readWith levels body kind s = .ok p s' →
              p.isRaw = false := by
            intro s p s' run
            apply beq_false_of_ne
            rw [Payload.kind_of_readWith run]
            rintro rfl
            exact name.payloadKind?_ne_raw announced
          refine Silent.map (Attribute.mk index) ?_
          refine ((Payload.silent_readWith h kind).contained typed).congr fun _ p _ _ => ?_
          rw [allDecoded_iff, decoded_iff_of_announced named announced]
          exact and_left_comm

theorem CodeBody.silent_readWith {element : Reader Attribute} {Fine : Attribute → Prop}
    (h : ∀ before, Silent before element fun a => before ∧ Fine a) (before : Prop) :
    Silent before (CodeBody.readWith element)
      fun b => before ∧ ∀ a ∈ b.attributes, Fine a :=
  (Silent.lift _).bind fun _ => (Silent.lift _).bind fun _ => (Silent.lift _).bind fun _ =>
    (Silent.lift _).bind fun _ => (Silent.lift _).bind fun _ =>
    (Silent.table16 h before).bind fun _ => .pure Iff.rfl

/-- Attributes are read without a notice just if all that was announced was decoded. -/
theorem Attribute.silent_read (pool : Pool) (levels : Nat) (before : Prop) :
    Silent before (Attribute.read pool levels) fun a => before ∧ a.AllDecoded pool := by
  induction levels generalizing before with
  | zero => exact silent_readWith (.fail .nestingTooDeep)
  | succ levels ih => exact silent_readWith (CodeBody.silent_readWith ih before)

end JvmClass
