import JvmClass.Attribute.Read
import JvmClass.Proofs.Bytes.Grammar

/-!
# JvmClass.Proofs.Bytes.Reading — the bytes that a reader takes.

`Reads r R` says that `r` succeeds exactly when the input starts with bytes that stand for a value
under `R`, that it then gives this value, and that it leaves what stands behind them.  Since `R`
says nothing about what follows, such a reader never looks beyond the bytes it takes.

Decoders and readers differ in their state only: a reader keeps notices beside the bytes that are
left.  `Source` hides the difference, so each law is stated once.
-/

namespace JvmClass

/-- A state that holds the bytes still to be read. -/
class Source (σ : Type) where
  rest : σ → Bytes

instance : Source Bytes := ⟨id⟩

instance : Source Reading := ⟨Reading.rest⟩

/-- The step succeeds exactly on the bytes of a value, gives that value and leaves what follows. -/
def Reads {σ α : Type} [Source σ] (r : EStateM ReadError σ α) (R : α → Bytes → Prop) : Prop :=
  ∀ (s : σ) (a : α) (rest : Bytes),
    (∃ s', r s = .ok a s' ∧ Source.rest s' = rest) ↔ ∃ bs, R a bs ∧ Source.rest s = bs ++ rest

namespace Reads

variable {σ α β : Type} [Source σ]

/-- What a step takes stands for the value that it gives. -/
theorem sound {r : EStateM ReadError σ α} {R : α → Bytes → Prop} (h : Reads r R) {s s' : σ} {a : α}
    (run : r s = .ok a s') : ∃ bs, R a bs ∧ Source.rest s = bs ++ Source.rest s' :=
  (h s a (Source.rest s')).mp ⟨s', run, rfl⟩

/-- A step takes the bytes of a value, whatever follows them. -/
theorem complete {r : EStateM ReadError σ α} {R : α → Bytes → Prop} (h : Reads r R) {s : σ} {a : α}
    {bs rest : Bytes} (ha : R a bs) (hs : Source.rest s = bs ++ rest) :
    ∃ s', r s = .ok a s' ∧ Source.rest s' = rest :=
  (h s a rest).mpr ⟨bs, ha, hs⟩

/-- The relation of a step is settled by what it takes. -/
theorem congr {r : EStateM ReadError σ α} {R S : α → Bytes → Prop} (h : Reads r R)
    (same : ∀ a bs, R a bs ↔ S a bs) : Reads r S := by
  intro s a rest
  rw [h s a rest]
  simp only [same]

/-- The bytes of two values lie behind one another only in one way. -/
theorem split_unique {r : EStateM ReadError σ α} {R : α → Bytes → Prop} (h : Reads r R)
    {s : σ} {a b : α} {x y x' y' : Bytes} (hs : Source.rest s = x ++ y) (ha : R a x) (hb : R b x')
    (same : x ++ y = x' ++ y') : a = b ∧ x = x' ∧ y = y' := by
  -- both are read from the same state, which has one result only
  obtain ⟨s₁, run₁, rest₁⟩ := h.complete ha hs
  obtain ⟨s₂, run₂, rest₂⟩ := h.complete hb (hs.trans same)
  rw [run₁] at run₂
  cases run₂
  have tails : y = y' := rest₁.symm.trans rest₂
  subst tails
  exact ⟨rfl, List.append_cancel_right same, rfl⟩

/-- The bytes of a list under a narrower relation are split as the reader splits them. -/
theorem series_cons_iff {r : Decoder α} {R S : α → Bytes → Prop} (h : Reads r R) {a : α}
    {as : List α} {x y : Bytes} (hx : R a x) (narrower : ∀ x, S a x → R a x) :
    Series S (a :: as) (x ++ y) ↔ S a x ∧ Series S as y := by
  rw [Series.cons_iff]
  constructor
  · rintro ⟨x', y', hx', hy', same⟩
    -- the narrower relation cannot split the bytes elsewhere
    obtain ⟨-, rfl, rfl⟩ := h.split_unique (s := x ++ y) rfl hx (narrower x' hx') same
    exact ⟨hx', hy'⟩
  · rintro ⟨hx', hy⟩
    exact ⟨x, y, hx', hy, rfl⟩

/-! ## Steps put together -/

theorem pure (a : α) :
    Reads (Pure.pure a : EStateM ReadError σ α) fun b bs => b = a ∧ bs = [] := by
  intro s b rest
  simp only [Pure.pure, EStateM.pure, EStateM.Result.ok.injEq]
  constructor
  · rintro ⟨_, ⟨rfl, rfl⟩, rfl⟩
    exact ⟨[], ⟨rfl, rfl⟩, rfl⟩
  · rintro ⟨_, ⟨rfl, rfl⟩, h⟩
    exact ⟨s, ⟨rfl, rfl⟩, h⟩

theorem fail (e : ReadError) :
    Reads (throw e : EStateM ReadError σ α) fun _ _ => False := by
  intro s a rest
  constructor
  · rintro ⟨_, run, -⟩
    cases run
  · rintro ⟨_, no, -⟩
    exact no.elim

/-- The second step need only be known for values that the first can give. -/
theorem bind_of {r : EStateM ReadError σ α} {f : α → EStateM ReadError σ β} {R : α → Bytes → Prop}
    {S : α → β → Bytes → Prop} (hr : Reads r R) (hf : ∀ a x, R a x → Reads (f a) (S a)) :
    Reads (r >>= f) fun b bs => ∃ a x y, R a x ∧ S a b y ∧ bs = x ++ y := by
  intro s b rest
  simp only [Bind.bind, EStateM.bind]
  constructor
  · rintro ⟨s', run, rfl⟩
    -- a run that succeeds has taken its first step
    cases first : r s with
    | error e s₁ =>
        rw [first] at run
        cases run
    | ok a s₁ =>
        rw [first] at run
        obtain ⟨x, hx, hs⟩ := hr.sound first
        obtain ⟨y, hy, hs₁⟩ := (hf a x hx).sound run
        exact ⟨x ++ y, ⟨a, x, y, hx, hy, rfl⟩, by rw [hs, hs₁, List.append_assoc]⟩
  · intro h
    rcases h with ⟨_, ⟨a, x, y, hx, hy, rfl⟩, hs⟩
    -- the second part is what follows the first
    rw [List.append_assoc] at hs
    obtain ⟨s₁, first, hs₁⟩ := hr.complete hx hs
    obtain ⟨s', second, hs'⟩ := (hf a x hx).complete hy hs₁
    exact ⟨s', by rw [first]; exact second, hs'⟩

theorem bind {r : EStateM ReadError σ α} {f : α → EStateM ReadError σ β} {R : α → Bytes → Prop}
    {S : α → β → Bytes → Prop} (hr : Reads r R) (hf : ∀ a, Reads (f a) (S a)) :
    Reads (r >>= f) fun b bs => ∃ a x y, R a x ∧ S a b y ∧ bs = x ++ y :=
  hr.bind_of fun a _ _ => hf a

theorem map {r : EStateM ReadError σ α} {R : α → Bytes → Prop} (f : α → β) (hr : Reads r R) :
    Reads (f <$> r) fun b bs => ∃ a, R a bs ∧ f a = b := by
  rw [map_eq_pure_bind]
  refine (hr.bind fun a => Reads.pure (f a)).congr fun b bs => ?_
  constructor
  · intro h
    rcases h with ⟨a, x, _, hx, ⟨rfl, rfl⟩, rfl⟩
    exact ⟨a, by rwa [List.append_nil], rfl⟩
  · rintro ⟨a, hx, rfl⟩
    exact ⟨a, bs, [], hx, ⟨rfl, rfl⟩, (List.append_nil bs).symm⟩

theorem seq {r : EStateM ReadError σ (α → β)} {t : EStateM ReadError σ α}
    {R : (α → β) → Bytes → Prop} {S : α → Bytes → Prop} (hr : Reads r R) (ht : Reads t S) :
    Reads (r <*> t) fun b bs => ∃ f a x y, R f x ∧ S a y ∧ f a = b ∧ bs = x ++ y := by
  rw [seq_eq_bind_map]
  refine (hr.bind fun f => ht.map f).congr fun b bs => ?_
  constructor
  · intro h
    rcases h with ⟨f, x, y, hx, ⟨a, hy, rfl⟩, rfl⟩
    exact ⟨f, a, x, y, hx, hy, rfl, rfl⟩
  · intro h
    rcases h with ⟨f, a, x, y, hx, hy, rfl, rfl⟩
    exact ⟨f, x, y, hx, ⟨a, hy, rfl⟩, rfl⟩

/-- A run of steps reads a list of that length. -/
theorem repeated {r : EStateM ReadError σ α} {R : α → Bytes → Prop} (hr : Reads r R) (n : Nat) :
    Reads (JvmClass.repeated r n) fun as bs => as.length = n ∧ Series R as bs := by
  induction n with
  | zero =>
      rw [repeated_zero]
      refine (Reads.pure (σ := σ) ([] : List α)).congr fun as bs => ?_
      rw [List.length_eq_zero_iff]
      constructor
      · rintro ⟨rfl, rfl⟩
        exact ⟨rfl, .nil⟩
      · rintro ⟨rfl, h⟩
        exact ⟨rfl, Series.nil_iff.mp h⟩
  | succ n ih =>
      rw [repeated_succ]
      refine (hr.bind fun a => ih.bind fun as => Reads.pure (a :: as)).congr fun as bs => ?_
      constructor
      · intro taken
        rcases taken with ⟨a, x, _, hx, ⟨as, y, _, ⟨rfl, hy⟩, ⟨rfl, rfl⟩, rfl⟩, rfl⟩
        rw [List.append_nil]
        exact ⟨rfl, .cons hx hy⟩
      · rintro ⟨size, h⟩
        cases h with
        | nil => cases size
        | @cons a as x y hx hy =>
            refine ⟨a, x, y, hx, ⟨as, y, [], ⟨?_, hy⟩, ⟨rfl, rfl⟩, ?_⟩, rfl⟩
            · exact Nat.succ.inj size
            · rw [List.append_nil]

/-- A decoder takes the same bytes as a reader. -/
theorem lift {d : Decoder α} {R : α → Bytes → Prop} (h : Reads d R) : Reads (Reader.lift d) R := by
  intro s a rest
  -- `lift` changes the bytes of the state and nothing else
  rw [← show Source.rest s.rest = Source.rest s from rfl, ← h s.rest a rest]
  unfold Reader.lift
  cases d s.rest with
  | error e left => simp
  | ok b left =>
      constructor
      · rintro ⟨s', run, rest⟩
        cases run
        exact ⟨left, rfl, rest⟩
      · rintro ⟨s', run, rest⟩
        cases run
        exact ⟨_, rfl, rest⟩

/-! ## Words, stretches and tables -/

theorem byte : Reads Decoder.byte fun b bs => bs = [b] := by
  intro s b rest
  show (∃ s', Decoder.byte s = .ok b s' ∧ s' = rest) ↔ ∃ bs, bs = [b] ∧ s = bs ++ rest
  simp only [exists_eq_right, Decoder.byte_eq_ok_iff, exists_eq_left, List.cons_append,
    List.nil_append]

theorem word16 : Reads Decoder.word16 fun w bs => bs = .ofWord16 w := by
  intro s w rest
  show (∃ s', Decoder.word16 s = .ok w s' ∧ s' = rest) ↔ ∃ bs, bs = .ofWord16 w ∧ s = bs ++ rest
  simp only [exists_eq_right, Decoder.word16_eq_ok_iff, exists_eq_left]

theorem word32 : Reads Decoder.word32 fun w bs => bs = .ofWord32 w := by
  intro s w rest
  show (∃ s', Decoder.word32 s = .ok w s' ∧ s' = rest) ↔ ∃ bs, bs = .ofWord32 w ∧ s = bs ++ rest
  simp only [exists_eq_right, Decoder.word32_eq_ok_iff, exists_eq_left]

theorem word64 : Reads Decoder.word64 fun w bs => bs = .ofWord64 w := by
  intro s w rest
  show (∃ s', Decoder.word64 s = .ok w s' ∧ s' = rest) ↔ ∃ bs, bs = .ofWord64 w ∧ s = bs ++ rest
  simp only [exists_eq_right, Decoder.word64_eq_ok_iff, exists_eq_left]

theorem take (n : Nat) : Reads (Decoder.take n) fun taken bs => taken.length = n ∧ bs = taken := by
  intro s taken rest
  show (∃ s', Decoder.take n s = .ok taken s' ∧ s' = rest) ↔
    ∃ bs, (taken.length = n ∧ bs = taken) ∧ s = bs ++ rest
  simp only [exists_eq_right, Decoder.take_eq_ok_iff]
  constructor
  · rintro ⟨rfl, rfl⟩
    exact ⟨taken, ⟨rfl, rfl⟩, rfl⟩
  · rintro ⟨_, ⟨rfl, rfl⟩, rfl⟩
    exact ⟨rfl, rfl⟩

/-- A stored count and that many elements make up a table. -/
theorem counted {c : EStateM ReadError σ UInt16} {r : EStateM ReadError σ α} {R : α → Bytes → Prop}
    (hc : Reads c fun w bs => bs = .ofWord16 w) (hr : Reads r R) :
    Reads (c >>= fun count => JvmClass.repeated r count.toNat) (Table R) := by
  refine (hc.bind fun count => hr.repeated count.toNat).congr fun as bs => ?_
  constructor
  · intro taken
    rcases taken with ⟨count, _, body, rfl, ⟨size, h⟩, rfl⟩
    refine ⟨?_, body, h, ?_⟩
    · rw [size]
      exact count.toNat_lt
    · rw [size, UInt16.ofNat_toNat]
  · rintro ⟨small, body, h, rfl⟩
    exact ⟨_, _, body, rfl, ⟨(UInt16.toNat_ofNat_of_lt small).symm, h⟩, rfl⟩

theorem table8 {d : Decoder α} {R : α → Bytes → Prop} (h : Reads d R) :
    Reads (Decoder.table8 d) (ShortTable R) := by
  refine (byte.bind fun count => h.repeated count.toNat).congr fun as bs => ?_
  constructor
  · intro taken
    rcases taken with ⟨count, _, body, rfl, ⟨size, h⟩, rfl⟩
    refine ⟨?_, body, h, ?_⟩
    · rw [size]
      exact count.toNat_lt
    · rw [size, UInt8.ofNat_toNat]
      rfl
  · rintro ⟨small, body, h, rfl⟩
    exact ⟨_, _, body, rfl, ⟨(UInt8.toNat_ofNat_of_lt small).symm, h⟩, rfl⟩

theorem table16 {d : Decoder α} {R : α → Bytes → Prop} (h : Reads d R) :
    Reads (Decoder.table16 d) (Table R) :=
  word16.counted h

theorem readerTable16 {r : Reader α} {R : α → Bytes → Prop} (h : Reads r R) :
    Reads (Reader.table16 r) (Table R) :=
  word16.lift.counted h

end Reads

end JvmClass
