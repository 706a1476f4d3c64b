import JvmClass.Proofs.Attribute.Clipping
import JvmClass.Proofs.Attribute.Counting
import JvmClass.Proofs.Attribute.Dependence
import JvmClass.Proofs.Pool.Growth

/-!
# JvmClass.Proofs.Attribute.Growth — attributes over a pool that grows.

A pool that extends another one says the same of every number that leads somewhere in the first.
So what was settled by looking at slots stays settled.  A verdict can change only if it is that a
number leads out of the pool (`Attribute.validate_of_extends`).  And an attribute that reading gave
is given again over the larger pool, as long as its name and the names of all attributes in it are
in use already (`Attribute.canonical_of_extends`): a name that was out of reach could come to stand
for something.

The payloads of raw attributes take an argument of their own, since what lies in their bytes has no
name that could be in use.  Whether bytes can be read as a payload of some kind does not depend on
the pool at all (`Payload.exists_of_kind`), since attributes in a body are always read as something.
-/

namespace JvmClass

open Writer

/-! ## Verdicts -/

/-- The violation is not that a number leads out of the pool. -/
def Violation.Lasting : Violation → Prop
  | .nameNotUtf8 _ | .payloadMismatch .. | .wrongTag .. => True
  | .nameOutOfBounds .. | .outOfBounds .. => False

/-- No number that was looked at leads out of the pool. -/
def Lasting : Except Violation Unit → Prop
  | .ok () => True
  | .error v => v.Lasting

section Verdicts

variable {p q : Pool}

/-- A fault that lasts is the same in the larger pool, and so is the absence of one. -/
theorem Pool.Extends.fault?_eq (h : q.Extends p) {name : AttributeName} {r : Reference}
    (lasting : ∀ v, r.fault? p name = some v → v.Lasting) : r.fault? q name = r.fault? p name := by
  unfold Reference.fault? Pool.fault? at lasting ⊢
  by_cases absent : r.index = 0 ∧ (name.allowsZero || r.optional) = true
  · rw [if_pos absent, if_pos absent]
  · rw [if_neg absent] at lasting
    rw [if_neg absent, if_neg absent]
    cases found : p.get? r.index with
    | none =>
        rw [found] at lasting
        exact (lasting _ rfl).elim
    | some entry => rw [h.get?_eq_some found]

/-- A verdict that lasts is the same over the larger pool. -/
theorem Attribute.validate_of_extends (h : q.Extends p) {a : Attribute}
    (lasting : Lasting (a.validate p)) : a.validate q = a.validate p := by
  cases found : p.get? a.name with
  | none =>
      rw [validate_of_none found] at lasting
      exact lasting.elim
  | some entry =>
      by_cases named : ∃ text, entry = .utf8 text
      · obtain ⟨text, rfl⟩ := named
        refine validate_eq_of_named found (h.get?_eq_some found) fun name same => ?_
        rw [same] at lasting
        refine Payload.validate_eq_of_faults (fun r _ lasts => h.fault?_eq lasts) fun v failed => ?_
        rw [failed] at lasting
        exact lasting
      · have unnamed := not_exists.mp named
        rw [validate_of_ne_utf8 found unnamed, validate_of_ne_utf8 (h.get?_eq_some found) unnamed]

end Verdicts

/-! ## Names in use -/

/-- The names of the attribute and of all attributes in it are numbers that the pool has. -/
def Attribute.NamedIn (p : Pool) (a : Attribute) : Prop :=
  ∀ b : Attribute, b = a ∨ b.Inside a → b.name.toNat < p.size

theorem Attribute.NamedIn.inside {p : Pool} {name : UInt16} {body : CodeBody}
    (h : Attribute.NamedIn p ⟨name, .code body⟩) {a : Attribute} (mem : a ∈ body.attributes) :
    a.NamedIn p := by
  intro b here
  rcases here with rfl | inside
  · exact h b (.inr (.direct mem))
  · exact h b (.inr (.deeper mem inside))

/-- A number that the pool has stands for the same name in the larger pool. -/
theorem Pool.Extends.announces_iff {p q : Pool} (h : q.Extends p) {index : UInt16}
    (within : index.toNat < p.size) {kind : PayloadKind} :
    q.Announces index kind ↔ p.Announces index kind := by
  have same : q.get? index = p.get? index := by
    cases found : p.get? index with
    | some entry => exact h.get?_eq_some found
    | none =>
        rcases Pool.get?_eq_none_iff.mp found with zero | outside
        · exact Pool.get?_eq_none_iff.mpr (.inl zero)
        · omega
  unfold Pool.Announces Pool.attributeName? Pool.utf8?
  rw [same]

/-! ## Payloads and kinds -/

/-- An attribute that was written can be read over any pool. -/
theorem Attribute.exists_written (pool : Pool) (levels : Nat) {a : Attribute} {bs : Bytes}
    (short : a.Short) (written : Emits a.write bs) :
    ∃ b : Attribute, b.Canonical pool levels ∧ Emits b.write bs := by
  obtain ⟨body, small, -, rfl⟩ := short_and_emits_iff.mp ⟨short, written⟩
  obtain ⟨payload, ⟨canonical, -⟩, written'⟩ := exists_canonical pool levels a.name body small
  exact ⟨_, canonical, written'⟩

/-- Whether bytes can be read as a payload of some kind does not depend on the pool, and more levels
do no harm. -/
theorem Payload.exists_of_kind (p q : Pool) {levels levels' : Nat} (deeper : levels ≤ levels')
    {r : Payload} {bytes : Bytes}
    (typed : r.TypedWith levels (Attribute.CanonicalInside q levels))
    (written : Emits r.write bytes) (short : bytes.length < 0x100000000) :
    ∃ r' : Payload, r'.kind = r.kind ∧
      r'.TypedWith levels' (Attribute.CanonicalInside p levels') ∧ Emits r'.write bytes := by
  by_cases isBody : r.kind = .code
  · obtain ⟨body, rfl⟩ := kind_eq_code_iff.mp isBody
    obtain ⟨n, rfl⟩ := Nat.exists_eq_add_one.mpr (Nat.lt_of_lt_of_le typed.1 deeper)
    have inner : ∀ a ∈ body.attributes, a.Short := shortInside_of_emits written short
    obtain ⟨x, y, fits, handlers, table, rfl⟩ := CodeBody.emits_write_iff.mp written
    -- each attribute of the body makes way for the one that is read from its bytes
    obtain ⟨attributes, exchanged⟩ :=
      table.exchange fun a mem z hz => Attribute.exists_written p n (inner a mem) hz
    obtain ⟨canonical, table'⟩ := Table.and_iff.mp exchanged
    refine ⟨.code { body with attributes }, rfl, ⟨Nat.succ_pos n, canonical⟩, ?_⟩
    exact CodeBody.emits_write_iff.mpr ⟨x, y, fits, handlers, table', rfl⟩
  · have raw := kind_ne_raw_of_typed typed
    rw [typedWith_iff_of_flat raw isBody] at typed
    refine ⟨r, rfl, (typedWith_iff_of_flat raw isBody).mpr ?_, written⟩
    exact ⟨typed.1, Nat.le_trans typed.2 deeper⟩

/-! ## Reading -/

section Reading

variable {p q : Pool} {levels : Nat}

/-- An attribute stays canonical over the larger pool if those in its body do. -/
theorem Attribute.canonical_of_inside (h : q.Extends p) {a : Attribute} {bs : Bytes}
    (inside : ∀ (b : Attribute) (x : Bytes), CanonicalInside p levels b →
      b.Short ∧ Emits b.write x → b.NamedIn p → CanonicalInside q levels b)
    (canonical : a.Canonical p levels) (stored : a.Short ∧ Emits a.write bs)
    (named : a.NamedIn p) : a.Canonical q levels := by
  have within : a.name.toNat < p.size := named a (.inl rfl)
  obtain ⟨index, payload⟩ := a
  by_cases raw : payload.kind = .raw
  · cases payload with
    | raw bytes =>
        have small : bytes.length < 0x100000000 := stored.1 bytes (emits_bytes_iff.mpr rfl)
        rw [canonical_raw_iff] at canonical ⊢
        rintro r ⟨announced, typed, written⟩
        -- what can be read from the bytes now could have been read from them before
        obtain ⟨r', same, typed', written'⟩ :=
          Payload.exists_of_kind p q (Nat.le_refl levels) typed written small
        apply canonical r'
        rw [same]
        exact ⟨(h.announces_iff within).mp announced, typed', written'⟩
    | _ => cases raw
  · rw [canonical_iff, canonicalWith_iff_of_kind raw] at canonical ⊢
    refine ⟨(h.announces_iff within).mpr canonical.1, ?_⟩
    have typed := canonical.2
    by_cases isBody : payload.kind = .code
    · obtain ⟨body, rfl⟩ := Payload.kind_eq_code_iff.mp isBody
      refine ⟨typed.1, fun b mem => ?_⟩
      obtain ⟨bytes, small, written, -⟩ := short_and_emits_iff.mp stored
      obtain ⟨x, storedInside⟩ := CodeBody.exists_stored_of_mem written small mem
      exact inside b x (typed.2 b mem) storedInside (named.inside mem)
    · rw [Payload.typedWith_iff_of_flat raw isBody] at typed ⊢
      exact typed

/-- An attribute that was read, with all names in use, is read again over the larger pool. -/
theorem Attribute.canonical_of_extends (h : q.Extends p) {a : Attribute} {bs : Bytes}
    (canonical : a.Canonical p levels) (stored : a.Short ∧ Emits a.write bs)
    (named : a.NamedIn p) : a.Canonical q levels := by
  induction levels generalizing a bs with
  | zero =>
      exact canonical_of_inside h (fun _ _ impossible => impossible.elim) canonical stored named
  | succ levels ih => exact canonical_of_inside h (fun _ _ => ih) canonical stored named

/-- A name that is not in use yet announces nothing, and may announce a payload later. -/
example :
    Attribute.read ⟨#[.utf8 "A"]⟩ maxNesting ⟨[0, 2, 0, 0, 0, 2, 0, 1], #[]⟩ =
        .ok ⟨2, .raw [0, 1]⟩ ⟨[], #[]⟩ ∧
      Attribute.read (Pool.afterPushes ⟨#[.utf8 "A"]⟩ [.utf8 "NestHost"]) maxNesting
        ⟨[0, 2, 0, 0, 0, 2, 0, 1], #[]⟩ = .ok ⟨2, .nestHost 1⟩ ⟨[], #[]⟩ :=
  ⟨rfl, rfl⟩

end Reading

end JvmClass
