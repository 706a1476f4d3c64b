import JvmClass.Proofs.Attribute.Rules

/-!
# JvmClass.Proofs.Attribute.Dependence — what a verdict depends on.

Validation looks at the slots that an attribute names and at no others, and of all but the name of
the attribute it looks at the kind of constant only.  `Attribute.accesses` collects these slots.  So
two pools of one size that agree on the collected slots give the same verdict
(`Attribute.validate_eq_of_accesses`): who keeps what is collected keeps everything that validation
has ever looked at.

The two runs are compared one reference at a time.  A list of references is refused for its first
fault, so a fault that stays the same in the other pool stays the first one if all before it have
stayed the same too; `Payload.validate_eq_of_faults` says this for the faults that are of interest,
whatever these are.
-/

namespace JvmClass

/-! ## Collected slots -/

/-- The collected slots are those that are named by a reference, without the number 0. -/
theorem mem_accessesOf_iff {references : List Reference} {index : UInt16} :
    index ∈ accessesOf references ↔ index ≠ 0 ∧ ∃ r ∈ references, r.index = index := by
  unfold accessesOf IndexSet.ofReferences
  rw [Std.TreeSet.mem_ofList, List.contains_iff_mem, List.mem_filter, List.mem_map, and_comm,
    decide_eq_true_eq]

/-! ## Faults in two pools -/

section Faults

variable {p q : Pool} {name : AttributeName}

/-- A field has the same fault in two pools if it leads to constants of the same kind. -/
theorem Pool.fault?_congr {expected : Expectation} {index : UInt16} (size : p.size = q.size)
    (kinds : (p.get? index).map Entry.tag? = (q.get? index).map Entry.tag?) :
    p.fault? name expected index = q.fault? name expected index := by
  unfold Pool.fault?
  cases inP : p.get? index with
  | none =>
      rw [inP, Option.map_none, eq_comm, Option.map_eq_none_iff] at kinds
      rw [kinds, size]
  | some entry =>
      rw [inP, Option.map_some, eq_comm, Option.map_eq_some_iff] at kinds
      obtain ⟨entry', inQ, same⟩ := kinds
      rw [inQ]
      dsimp only
      rw [same]

/-- The first fault stays the first one as long as faults of its sort do not change. -/
theorem findSome?_eq_of_faults {S : Violation → Prop} {references : List Reference}
    (each : ∀ r ∈ references, (∀ v, r.fault? p name = some v → S v) →
      r.fault? q name = r.fault? p name)
    (first : ∀ v, references.findSome? (Reference.fault? p name) = some v → S v) :
    references.findSome? (Reference.fault? q name) =
      references.findSome? (Reference.fault? p name) := by
  induction references with
  | nil => rfl
  | cons r references ih =>
      rw [List.forall_mem_cons] at each
      have same : r.fault? q name = r.fault? p name := by
        refine each.1 fun v found => first v ?_
        rw [List.findSome?_cons, found]
      rw [List.findSome?_cons, List.findSome?_cons, same]
      -- the others are looked at only when this reference has no fault
      cases fault : r.fault? p name with
      | some v => rfl
      | none =>
          refine ih each.2 fun v found => first v ?_
          rw [List.findSome?_cons, fault]
          exact found

/-- The verdict on a payload stays the same as long as faults of the sort that it reports do not
change. -/
theorem Payload.validate_eq_of_faults {S : Violation → Prop} {payload : Payload}
    (each : ∀ r ∈ payload.references, (∀ v, r.fault? p name = some v → S v) →
      r.fault? q name = r.fault? p name)
    (verdict : ∀ v, payload.validate p name = .error v → S v) :
    payload.validate q name = payload.validate p name := by
  unfold Payload.validate at verdict ⊢
  by_cases belongs : payload.belongsTo name
  · rw [if_pos belongs, forM_validate_eq] at verdict
    rw [if_pos belongs, if_pos belongs, forM_validate_eq, forM_validate_eq,
      findSome?_eq_of_faults each]
    intro v found
    exact verdict v (by rw [found]; rfl)
  · rw [if_neg belongs, if_neg belongs]

/-- Under one name in both pools, the verdicts differ no further than those on the payload. -/
theorem Attribute.validate_eq_of_named {a : Attribute} {text : String}
    (inP : p.get? a.name = some (.utf8 text)) (inQ : q.get? a.name = some (.utf8 text))
    (payload : ∀ name, a.validate p = a.payload.validate p name →
      a.payload.validate q name = a.payload.validate p name) :
    a.validate q = a.validate p := by
  cases known : AttributeName.ofString? text with
  | none => rw [validate_of_unknown inP known, validate_of_unknown inQ known]
  | some name =>
      have split := validate_of_known inP known
      rw [validate_of_known inQ known]
      by_cases checked : (name.hasReferenceRules && !a.payload.isRaw) = true
      · rw [if_pos checked] at split
        rw [if_pos checked, split]
        exact payload name split
      · rw [if_neg checked] at split
        rw [if_neg checked, split]

end Faults

/-! ## Verdicts in two pools -/

theorem Pool.utf8?_eq_some_iff {p : Pool} {index : UInt16} {text : String} :
    p.utf8? index = some text ↔ p.get? index = some (.utf8 text) := by
  unfold Pool.utf8?
  cases p.get? index with
  | none => exact ⟨nofun, nofun⟩
  | some entry =>
      rw [Option.some.injEq]
      cases entry with
      | utf8 text' => rw [Option.some.injEq, Entry.utf8.injEq]
      | _ => exact ⟨nofun, nofun⟩

/-- Without a text for its name, an attribute is refused for the name, and for its number only. -/
theorem Attribute.validate_of_unnamed {p : Pool} {a : Attribute} (unnamed : p.utf8? a.name = none) :
    a.validate p =
      if a.name = 0 ∨ p.size ≤ a.name.toNat then .error (.nameOutOfBounds a.name p.size)
      else .error (.nameNotUtf8 a.name) := by
  by_cases outside : a.name = 0 ∨ p.size ≤ a.name.toNat
  · rw [if_pos outside]
    exact validate_of_none (Pool.get?_eq_none_iff.mpr outside)
  · rw [if_neg outside]
    cases found : p.get? a.name with
    | none => exact absurd (Pool.get?_eq_none_iff.mp found) outside
    | some entry =>
        refine validate_of_ne_utf8 found fun text same => ?_
        rw [same, ← Pool.utf8?_eq_some_iff, unnamed] at found
        cases found

/-- Two pools of one size give the same verdict on an attribute if its name is the same text in
both, or a text in neither, and each slot that is collected from it holds the same kind of constant
in both. -/
theorem Attribute.validate_eq_of_accesses {p q : Pool} {a : Attribute} (size : p.size = q.size)
    (kinds : ∀ index ∈ a.accesses,
      (p.get? index).map Entry.tag? = (q.get? index).map Entry.tag?)
    (names : p.utf8? a.name = q.utf8? a.name) : a.validate p = a.validate q := by
  cases named : p.utf8? a.name with
  | none =>
      rw [named, eq_comm] at names
      rw [validate_of_unnamed named, validate_of_unnamed names, size]
  | some text =>
      rw [named, eq_comm] at names
      rw [Pool.utf8?_eq_some_iff] at named names
      refine validate_eq_of_named names named fun name _ => ?_
      refine Payload.validate_eq_of_faults (S := fun _ => True) ?_ fun _ _ => trivial
      intro r mem _
      have collected : r ∈ a.references := by
        obtain ⟨_, payload⟩ := a
        exact List.mem_cons_of_mem _ mem
      -- the number 0 is not collected, but it leads nowhere in any pool
      have alike : (p.get? r.index).map Entry.tag? = (q.get? r.index).map Entry.tag? := by
        by_cases zero : r.index = 0
        · rw [Pool.get?_eq_none_iff.mpr (.inl zero), Pool.get?_eq_none_iff.mpr (.inl zero)]
        · exact kinds r.index (mem_accessesOf_iff.mpr ⟨zero, r, collected, rfl⟩)
      unfold Reference.fault?
      rw [Pool.fault?_congr size alike]

/-- A class, a `long` and the name of the class. -/
def namedClassPool : Pool :=
  ⟨#[.utf8 "NestMembers", .classRef 5, .long 7, .unusable, .utf8 "A"]⟩

/-- The same but for what no attribute of the first name can tell. -/
def strippedPool : Pool :=
  ⟨#[.utf8 "NestMembers", .classRef 0, .double 0, .unusable, .integer 0]⟩

/-- Slot 4 holds nothing in either pool, and slot 9 does not exist. -/
theorem Attribute.validate_eq_of_accesses_stripped :
    namedClassPool.size = strippedPool.size ∧
      (∀ index ∈ Attribute.accesses ⟨1, .nestMembers [2, 4, 9]⟩,
        (namedClassPool.get? index).map Entry.tag? =
          (strippedPool.get? index).map Entry.tag?) ∧
      namedClassPool.utf8? 1 = strippedPool.utf8? 1 ∧
      Attribute.validate namedClassPool ⟨1, .nestMembers [2, 4, 9]⟩ =
        Attribute.validate strippedPool ⟨1, .nestMembers [2, 4, 9]⟩ ∧
      Attribute.validate strippedPool ⟨1, .nestMembers [2, 4, 9]⟩ =
        .error (.wrongTag .nestMembers 4 (.exactly .classRef) none) := by
  have kinds : ∀ index ∈ Attribute.accesses ⟨1, .nestMembers [2, 4, 9]⟩,
      (namedClassPool.get? index).map Entry.tag? =
        (strippedPool.get? index).map Entry.tag? := by
    have each : ∀ r ∈ [Reference.required .utf8 1, .required .classRef 2, .required .classRef 4,
        .required .classRef 9], (namedClassPool.get? r.index).map Entry.tag? =
          (strippedPool.get? r.index).map Entry.tag? := by
      decide
    intro index collected
    obtain ⟨-, r, mem, rfl⟩ := mem_accessesOf_iff.mp collected
    exact each r mem
  exact ⟨rfl, kinds, rfl, validate_eq_of_accesses rfl kinds rfl, rfl⟩

end JvmClass
