import JvmClass.Attribute.Validation

/-!
# JvmClass.Proofs.Attribute.Rules — the reference rules, stated field by field.

`Attribute.validate` collects the references of an attribute in one list and checks the list.
Here the rules are stated without that list: `Payload.Sound` goes through the payload and says of
each field which kinds of constant it may lead to, and `Payload.fault?` goes through it in the
order of storage and stops at the first field that breaks its rule.  `Attribute.Verdict` puts the
two together with the tests on the name.  The main theorem says that `validate` gives this verdict
and no other.

The permission to be 0 has two sources in `validate`, the name of the attribute and the field.  The
rules need one only: a payload that goes with a name that grants the permission grants it in each of
its fields.
-/

namespace JvmClass

/-! ## The rules -/

/-- The slot holds a constant of one of these kinds. -/
def Pool.Holds (pool : Pool) (tags : List Tag) (index : UInt16) : Prop :=
  ∃ entry tag, pool.get? index = some entry ∧ entry.tag? = some tag ∧ tag ∈ tags

mutual

/-- The type is a string constant, and the elements obey their rules. -/
def AnnotationNode.Sound (pool : Pool) : AnnotationNode → Prop
  | ⟨type, pairs⟩ => pool.Holds [.utf8] type ∧ ElementPair.SoundAll pool pairs

/-- The names are string constants, and the values obey their rules. -/
def ElementPair.SoundAll (pool : Pool) : List ElementPair → Prop
  | [] => True
  | ⟨name, value⟩ :: rest =>
    pool.Holds [.utf8] name ∧ value.Sound pool ∧ ElementPair.SoundAll pool rest

/-- The rule of a value goes by its shape. -/
def ElementValue.Sound (pool : Pool) : ElementValue → Prop
  | .primitive _ constant => pool.Holds [.integer, .float, .long, .double] constant
  | .string text => pool.Holds [.utf8] text
  | .enum type constant => pool.Holds [.utf8] type ∧ pool.Holds [.utf8] constant
  | .classInfo constant => pool.Holds [.classRef] constant
  | .nested value => value.Sound pool
  | .array values => ElementValue.SoundAll pool values

/-- The values of an array obey their rules. -/
def ElementValue.SoundAll (pool : Pool) : List ElementValue → Prop
  | [] => True
  | value :: rest => value.Sound pool ∧ ElementValue.SoundAll pool rest

end

/-- The rules of each payload.  An enclosing method and the fields of an inner class may be
absent. -/
def Payload.Sound (pool : Pool) : Payload → Prop
  | .constantValue constant => pool.Holds [.integer, .float, .long, .double, .string] constant
  | .annotations list => ∀ a ∈ list, a.Sound pool
  | .typeAnnotations list => ∀ a ∈ list, a.node.Sound pool
  | .parameterAnnotations parameters => ∀ list ∈ parameters, ∀ a ∈ list, a.Sound pool
  | .annotationDefault value => value.Sound pool
  | .nestHost host => pool.Holds [.classRef] host
  | .nestMembers classes => ∀ c ∈ classes, pool.Holds [.classRef] c
  | .enclosingMethod owner method => (owner = 0 ∨ pool.Holds [.classRef] owner) ∧
    (method = 0 ∨ pool.Holds [.nameAndType] method)
  | .exceptions classes => ∀ c ∈ classes, pool.Holds [.classRef] c
  | .innerClasses classes => ∀ c ∈ classes, (c.inner = 0 ∨ pool.Holds [.classRef] c.inner) ∧
    (c.outer = 0 ∨ pool.Holds [.classRef] c.outer) ∧ (c.name = 0 ∨ pool.Holds [.utf8] c.name)
  | .code _ => True
  | .raw _ => True

/-! ## The first field that breaks a rule -/

/-- What is wrong with a field, if anything is. -/
def Pool.fault? (pool : Pool) (name : AttributeName) (expected : Expectation) (index : UInt16) :
    Option Violation :=
  match pool.get? index with
  | none => some (.outOfBounds name index pool.size)
  | some entry =>
    if entry.tag?.any expected.accepts then none
    else some (.wrongTag name index expected entry.tag?)

/-- The same for a field that may be 0. -/
def Pool.faultUnlessZero? (pool : Pool) (name : AttributeName) (expected : Expectation)
    (index : UInt16) : Option Violation :=
  if index = 0 then none else pool.fault? name expected index

mutual

/-- The type comes first, then the elements. -/
def AnnotationNode.fault? (pool : Pool) (name : AttributeName) : AnnotationNode → Option Violation
  | ⟨type, pairs⟩ =>
    (pool.fault? name (.exactly .utf8) type).or (ElementPair.faultAll? pool name pairs)

/-- The name of each element comes before its value. -/
def ElementPair.faultAll? (pool : Pool) (name : AttributeName) :
    List ElementPair → Option Violation
  | [] => none
  | ⟨element, value⟩ :: rest =>
    (pool.fault? name (.exactly .utf8) element).or
      ((value.fault? pool name).or (ElementPair.faultAll? pool name rest))

/-- The first fault of a value. -/
def ElementValue.fault? (pool : Pool) (name : AttributeName) : ElementValue → Option Violation
  | .primitive _ constant => pool.fault? name .primitive constant
  | .string text => pool.fault? name (.exactly .utf8) text
  | .enum type constant => (pool.fault? name (.exactly .utf8) type).or
    (pool.fault? name (.exactly .utf8) constant)
  | .classInfo constant => pool.fault? name (.exactly .classRef) constant
  | .nested value => value.fault? pool name
  | .array values => ElementValue.faultAll? pool name values

/-- The first fault of the values of an array. -/
def ElementValue.faultAll? (pool : Pool) (name : AttributeName) :
    List ElementValue → Option Violation
  | [] => none
  | value :: rest => (value.fault? pool name).or (ElementValue.faultAll? pool name rest)

end

/-- The inner class comes before its outer class and its name. -/
def InnerClass.fault? (pool : Pool) (name : AttributeName) (c : InnerClass) : Option Violation :=
  (pool.faultUnlessZero? name (.exactly .classRef) c.inner).or
    ((pool.faultUnlessZero? name (.exactly .classRef) c.outer).or
      (pool.faultUnlessZero? name (.exactly .utf8) c.name))

/-- The first fault of a payload. -/
def Payload.fault? (pool : Pool) (name : AttributeName) : Payload → Option Violation
  | .constantValue constant => pool.fault? name .constantValue constant
  | .annotations list => list.findSome? (AnnotationNode.fault? pool name)
  | .typeAnnotations list => list.findSome? fun a => a.node.fault? pool name
  | .parameterAnnotations parameters =>
    parameters.findSome? fun list => list.findSome? (AnnotationNode.fault? pool name)
  | .annotationDefault value => value.fault? pool name
  | .nestHost host => pool.fault? name (.exactly .classRef) host
  | .nestMembers classes => classes.findSome? (pool.fault? name (.exactly .classRef))
  | .enclosingMethod owner method => (pool.faultUnlessZero? name (.exactly .classRef) owner).or
    (pool.faultUnlessZero? name (.exactly .nameAndType) method)
  | .exceptions classes => classes.findSome? (pool.fault? name (.exactly .classRef))
  | .innerClasses classes => classes.findSome? (InnerClass.fault? pool name)
  | .code _ => none
  | .raw _ => none

/-! ## The verdict on an attribute -/

/-- The outcomes of validation, in the order in which they take precedence. -/
inductive Attribute.Verdict (pool : Pool) (a : Attribute) : Except Violation Unit → Prop
  | outside (h : a.name = 0 ∨ pool.size ≤ a.name.toNat) :
      Verdict pool a (.error (.nameOutOfBounds a.name pool.size))
  | unnamed (inside : a.name ≠ 0 ∧ a.name.toNat < pool.size)
      (h : ∀ text, pool.get? a.name ≠ some (.utf8 text)) :
      Verdict pool a (.error (.nameNotUtf8 a.name))
  | unknown {text : String} (named : pool.get? a.name = some (.utf8 text))
      (h : AttributeName.ofString? text = none) : Verdict pool a (.ok ())
  | unruled {text : String} {name : AttributeName} (named : pool.get? a.name = some (.utf8 text))
      (known : AttributeName.ofString? text = some name)
      (h : name.hasReferenceRules = false ∨ a.payload.isRaw = true) : Verdict pool a (.ok ())
  | mismatched {text : String} {name : AttributeName}
      (named : pool.get? a.name = some (.utf8 text))
      (known : AttributeName.ofString? text = some name)
      (ruled : name.hasReferenceRules = true) (typed : a.payload.isRaw = false)
      (h : a.payload.belongsTo name = false) :
      Verdict pool a (.error (.payloadMismatch name a.payload.kind))
  | sound {text : String} {name : AttributeName} (named : pool.get? a.name = some (.utf8 text))
      (known : AttributeName.ofString? text = some name)
      (ruled : name.hasReferenceRules = true) (typed : a.payload.isRaw = false)
      (belongs : a.payload.belongsTo name = true) (h : a.payload.Sound pool) :
      Verdict pool a (.ok ())
  | unsound {text : String} {name : AttributeName} {v : Violation}
      (named : pool.get? a.name = some (.utf8 text))
      (known : AttributeName.ofString? text = some name)
      (ruled : name.hasReferenceRules = true) (typed : a.payload.isRaw = false)
      (belongs : a.payload.belongsTo name = true) (h : a.payload.fault? pool name = some v) :
      Verdict pool a (.error v)

/-! ## Soundness is the absence of faults -/

section Faults

variable {pool : Pool} {name : AttributeName}

/-- A field has no fault just if it leads to one of the kinds that are expected there. -/
theorem Pool.fault?_eq_none_iff {expected : Expectation} {tags : List Tag}
    (same : ∀ tag, expected.accepts tag = true ↔ tag ∈ tags) {index : UInt16} :
    pool.fault? name expected index = none ↔ pool.Holds tags index := by
  unfold Pool.fault? Pool.Holds
  cases pool.get? index with
  | none => simp
  | some entry => cases tagged : entry.tag? <;> simp [tagged, ← same]

theorem Expectation.accepts_exactly_iff {tag found : Tag} :
    (Expectation.exactly tag).accepts found = true ↔ found ∈ [tag] := by
  rw [List.mem_singleton]
  exact beq_iff_eq

theorem Expectation.accepts_primitive_iff {found : Tag} :
    Expectation.primitive.accepts found = true ↔ found ∈ [.integer, .float, .long, .double] := by
  cases found <;> decide

theorem Expectation.accepts_constantValue_iff {found : Tag} :
    Expectation.constantValue.accepts found = true ↔
      found ∈ [.integer, .float, .long, .double, .string] := by
  cases found <;> decide

theorem Pool.fault?_exactly_iff {tag : Tag} {index : UInt16} :
    pool.fault? name (.exactly tag) index = none ↔ pool.Holds [tag] index :=
  Pool.fault?_eq_none_iff fun _ => Expectation.accepts_exactly_iff

theorem Pool.faultUnlessZero?_exactly_iff {tag : Tag} {index : UInt16} :
    pool.faultUnlessZero? name (.exactly tag) index = none ↔
      index = 0 ∨ pool.Holds [tag] index := by
  unfold Pool.faultUnlessZero?
  by_cases zero : index = 0
  · rw [if_pos zero]
    exact ⟨fun _ => .inl zero, fun _ => rfl⟩
  · rw [if_neg zero, Pool.fault?_exactly_iff, or_iff_right zero]

mutual

theorem AnnotationNode.fault?_eq_none_iff :
    ∀ a : AnnotationNode, a.fault? pool name = none ↔ a.Sound pool
  | ⟨type, pairs⟩ => by
    rw [AnnotationNode.fault?, AnnotationNode.Sound, Option.or_eq_none_iff,
      Pool.fault?_exactly_iff, ElementPair.faultAll?_eq_none_iff pairs]

theorem ElementPair.faultAll?_eq_none_iff :
    ∀ pairs : List ElementPair,
      ElementPair.faultAll? pool name pairs = none ↔ ElementPair.SoundAll pool pairs
  | [] => by
    rw [ElementPair.faultAll?, ElementPair.SoundAll]
    exact ⟨fun _ => trivial, fun _ => rfl⟩
  | ⟨element, value⟩ :: rest => by
    rw [ElementPair.faultAll?, ElementPair.SoundAll, Option.or_eq_none_iff,
      Option.or_eq_none_iff, Pool.fault?_exactly_iff, ElementValue.fault?_eq_none_iff value,
      ElementPair.faultAll?_eq_none_iff rest]

theorem ElementValue.fault?_eq_none_iff :
    ∀ value : ElementValue, value.fault? pool name = none ↔ value.Sound pool
  | .primitive _ constant => by
    rw [ElementValue.fault?, ElementValue.Sound]
    exact Pool.fault?_eq_none_iff fun _ => Expectation.accepts_primitive_iff
  | .string text | .classInfo text => by
    rw [ElementValue.fault?, ElementValue.Sound, Pool.fault?_exactly_iff]
  | .enum type constant => by
    rw [ElementValue.fault?, ElementValue.Sound, Option.or_eq_none_iff,
      Pool.fault?_exactly_iff, Pool.fault?_exactly_iff]
  | .nested value => by
    rw [ElementValue.fault?, ElementValue.Sound, AnnotationNode.fault?_eq_none_iff value]
  | .array values => by
    rw [ElementValue.fault?, ElementValue.Sound, ElementValue.faultAll?_eq_none_iff values]

theorem ElementValue.faultAll?_eq_none_iff :
    ∀ values : List ElementValue,
      ElementValue.faultAll? pool name values = none ↔ ElementValue.SoundAll pool values
  | [] => by
    rw [ElementValue.faultAll?, ElementValue.SoundAll]
    exact ⟨fun _ => trivial, fun _ => rfl⟩
  | value :: rest => by
    rw [ElementValue.faultAll?, ElementValue.SoundAll, Option.or_eq_none_iff,
      ElementValue.fault?_eq_none_iff value, ElementValue.faultAll?_eq_none_iff rest]

end

theorem InnerClass.fault?_eq_none_iff {c : InnerClass} : c.fault? pool name = none ↔
    (c.inner = 0 ∨ pool.Holds [.classRef] c.inner) ∧
      (c.outer = 0 ∨ pool.Holds [.classRef] c.outer) ∧
        (c.name = 0 ∨ pool.Holds [.utf8] c.name) := by
  unfold InnerClass.fault?
  simp only [Option.or_eq_none_iff, Pool.faultUnlessZero?_exactly_iff]

/-- A payload obeys the rules just if no fault is found in it. -/
theorem Payload.fault?_eq_none_iff {p : Payload} : p.fault? pool name = none ↔ p.Sound pool := by
  cases p with
  | constantValue constant =>
      exact Pool.fault?_eq_none_iff fun _ => Expectation.accepts_constantValue_iff
  | annotations list =>
      simp only [Payload.fault?, Payload.Sound, List.findSome?_eq_none_iff,
        AnnotationNode.fault?_eq_none_iff]
  | typeAnnotations list =>
      simp only [Payload.fault?, Payload.Sound, List.findSome?_eq_none_iff,
        AnnotationNode.fault?_eq_none_iff]
  | parameterAnnotations parameters =>
      simp only [Payload.fault?, Payload.Sound, List.findSome?_eq_none_iff,
        AnnotationNode.fault?_eq_none_iff]
  | annotationDefault value => exact ElementValue.fault?_eq_none_iff value
  | nestHost host => exact Pool.fault?_exactly_iff
  | nestMembers classes | exceptions classes =>
      simp only [Payload.fault?, Payload.Sound, List.findSome?_eq_none_iff,
        Pool.fault?_exactly_iff]
  | enclosingMethod owner method =>
      simp only [Payload.fault?, Payload.Sound, Option.or_eq_none_iff,
        Pool.faultUnlessZero?_exactly_iff]
  | innerClasses classes =>
      simp only [Payload.fault?, Payload.Sound, List.findSome?_eq_none_iff,
        InnerClass.fault?_eq_none_iff]
  | code _ | raw _ => exact ⟨fun _ => trivial, fun _ => rfl⟩

/-! ## The list of references finds the same fault -/

/-- What validation says of a reference. -/
def Reference.fault? (pool : Pool) (name : AttributeName) (r : Reference) : Option Violation :=
  if r.index = 0 ∧ (name.allowsZero || r.optional) then none
  else pool.fault? name r.expectation r.index

theorem Reference.validate_eq (r : Reference) :
    r.validate pool name = (r.fault? pool name).elim (.ok ()) .error := by
  unfold Reference.validate Reference.fault? Pool.fault?
  by_cases absent : r.index = 0 ∧ (name.allowsZero || r.optional)
  · rw [if_pos absent, if_pos absent]
    rfl
  · rw [if_neg absent, if_neg absent]
    cases pool.get? r.index with
    | none => rfl
    | some entry =>
        show (if entry.tag?.any r.expectation.accepts then _ else _) =
          Option.elim (if entry.tag?.any r.expectation.accepts then _ else _) _ _
        split <;> rfl

/-- A list of references is refused for its first fault. -/
theorem forM_validate_eq (references : List Reference) :
    references.forM (Reference.validate pool name) =
      (references.findSome? (Reference.fault? pool name)).elim (.ok ()) .error := by
  induction references with
  | nil => rfl
  | cons r references ih =>
      show (r.validate pool name >>= fun _ => references.forM (Reference.validate pool name)) = _
      rw [Reference.validate_eq, List.findSome?_cons]
      -- the rest is looked at only when this reference has no fault
      cases r.fault? pool name with
      | none => exact ih
      | some v => rfl

theorem findSome?_flatMap {α : Type} {f : α → List Reference} {g : α → Option Violation}
    (each : ∀ a, (f a).findSome? (Reference.fault? pool name) = g a) (as : List α) :
    (as.flatMap f).findSome? (Reference.fault? pool name) = as.findSome? g := by
  induction as with
  | nil => rfl
  | cons a as ih =>
      rw [List.flatMap_cons, List.findSome?_append, each, ih, List.findSome?_cons]
      cases g a <;> rfl

/-- Names whose attributes have optional fields only grant no permission to the others. -/
theorem Reference.fault?_of_required (strict : name.allowsZero = false) {expected : Expectation}
    {index : UInt16} :
    Reference.fault? pool name ⟨index, expected, false⟩ = pool.fault? name expected index := by
  unfold Reference.fault?
  rw [strict]
  exact if_neg fun h => Bool.noConfusion h.2

/-- Where the name grants the permission, every field has it. -/
theorem Reference.fault?_of_lax (lax : name.allowsZero = true) {expected : Expectation}
    {index : UInt16} {optional : Bool} :
    Reference.fault? pool name ⟨index, expected, optional⟩ =
      pool.faultUnlessZero? name expected index := by
  unfold Reference.fault? Pool.faultUnlessZero?
  rw [lax]
  simp only [Bool.true_or, and_true]

mutual

theorem AnnotationNode.findSome?_references (strict : name.allowsZero = false) :
    ∀ a : AnnotationNode, a.references.findSome? (Reference.fault? pool name) = a.fault? pool name
  | ⟨type, pairs⟩ => by
    rw [AnnotationNode.references, AnnotationNode.fault?, Reference.required, List.findSome?_cons,
      Reference.fault?_of_required strict, ElementPair.findSome?_referencesAll strict pairs]
    cases pool.fault? name (.exactly .utf8) type <;> rfl

theorem ElementPair.findSome?_referencesAll (strict : name.allowsZero = false) :
    ∀ pairs : List ElementPair,
      (ElementPair.referencesAll pairs).findSome? (Reference.fault? pool name) =
        ElementPair.faultAll? pool name pairs
  | [] => by
    rw [ElementPair.referencesAll, ElementPair.faultAll?]
    rfl
  | ⟨element, value⟩ :: rest => by
    rw [ElementPair.referencesAll, ElementPair.faultAll?, Reference.required,
      List.findSome?_cons, Reference.fault?_of_required strict, List.findSome?_append,
      ElementValue.findSome?_references strict value,
      ElementPair.findSome?_referencesAll strict rest]
    cases pool.fault? name (.exactly .utf8) element <;> rfl

theorem ElementValue.findSome?_references (strict : name.allowsZero = false) :
    ∀ value : ElementValue,
      value.references.findSome? (Reference.fault? pool name) = value.fault? pool name
  | .primitive _ _ | .string _ | .classInfo _ => by
    rw [ElementValue.references, ElementValue.fault?, List.findSome?_singleton]
    exact Reference.fault?_of_required strict
  | .enum type constant => by
    rw [ElementValue.references, ElementValue.fault?, Reference.required, Reference.required,
      List.findSome?_cons, List.findSome?_singleton, Reference.fault?_of_required strict,
      Reference.fault?_of_required strict]
    cases pool.fault? name (.exactly .utf8) type <;> rfl
  | .nested value => by
    rw [ElementValue.references, ElementValue.fault?,
      AnnotationNode.findSome?_references strict value]
  | .array values => by
    rw [ElementValue.references, ElementValue.fault?,
      ElementValue.findSome?_referencesAll strict values]

theorem ElementValue.findSome?_referencesAll (strict : name.allowsZero = false) :
    ∀ values : List ElementValue,
      (ElementValue.referencesAll values).findSome? (Reference.fault? pool name) =
        ElementValue.faultAll? pool name values
  | [] => by
    rw [ElementValue.referencesAll, ElementValue.faultAll?]
    rfl
  | value :: rest => by
    rw [ElementValue.referencesAll, ElementValue.faultAll?, List.findSome?_append,
      ElementValue.findSome?_references strict value,
      ElementValue.findSome?_referencesAll strict rest]

end

theorem InnerClass.findSome?_references (lax : name.allowsZero = true) (c : InnerClass) :
    c.references.findSome? (Reference.fault? pool name) = c.fault? pool name := by
  unfold InnerClass.references InnerClass.fault? Reference.required Reference.orAbsent
  simp only [List.findSome?_cons, Reference.fault?_of_lax lax]
  cases pool.faultUnlessZero? name (.exactly .classRef) c.inner <;>
    cases pool.faultUnlessZero? name (.exactly .classRef) c.outer <;>
    cases pool.faultUnlessZero? name (.exactly .utf8) c.name <;> rfl

/-- The two names that grant the permission are those of the two payloads that need it. -/
theorem AttributeName.allowsZero_eq {kind : PayloadKind} (h : name.payloadKind? = some kind) :
    name.allowsZero = (kind == .enclosingMethod || kind == .innerClasses) := by
  cases name <;> cases h <;> rfl

/-- For a payload that goes with the name and is no body, the first fault in its list of
references is the first one in the order of storage. -/
theorem Payload.findSome?_references {p : Payload} (h : name.payloadKind? = some p.kind)
    (notBody : p.kind ≠ .code) :
    p.references.findSome? (Reference.fault? pool name) = p.fault? pool name := by
  -- which permission the name grants follows from the kind of the payload
  have permission := AttributeName.allowsZero_eq h
  cases p with
  | code body => exact absurd rfl notBody
  | raw bytes => rfl
  | constantValue constant =>
      rw [Payload.references, Payload.fault?, List.findSome?_singleton]
      exact Reference.fault?_of_required permission
  | nestHost host =>
      rw [Payload.references, Payload.fault?, List.findSome?_singleton]
      exact Reference.fault?_of_required permission
  | nestMembers classes | exceptions classes =>
      rw [Payload.references, Payload.fault?, List.findSome?_map]
      congr
      funext index
      exact Reference.fault?_of_required permission
  | annotations list =>
      rw [Payload.references, Payload.fault?]
      exact findSome?_flatMap (AnnotationNode.findSome?_references permission) list
  | typeAnnotations list =>
      rw [Payload.references, Payload.fault?]
      exact findSome?_flatMap (fun a => AnnotationNode.findSome?_references permission a.node) list
  | parameterAnnotations parameters =>
      rw [Payload.references, Payload.fault?, List.flatten_eq_flatMap, List.flatMap_assoc]
      exact findSome?_flatMap
        (findSome?_flatMap (AnnotationNode.findSome?_references permission)) parameters
  | annotationDefault value => exact ElementValue.findSome?_references permission value
  | enclosingMethod owner method =>
      rw [Payload.references, Payload.fault?, Reference.required, Reference.orAbsent,
        List.findSome?_cons, List.findSome?_singleton, Reference.fault?_of_lax permission,
        Reference.fault?_of_lax permission]
      cases pool.faultUnlessZero? name (.exactly .classRef) owner <;> rfl
  | innerClasses classes =>
      rw [Payload.references, Payload.fault?]
      exact findSome?_flatMap (InnerClass.findSome?_references permission) classes

/-- A body has no rules of its own. -/
theorem AttributeName.payloadKind?_ne_code (ruled : name.hasReferenceRules = true) :
    name.payloadKind? ≠ some .code := by
  cases name <;> first | decide | cases ruled

theorem Payload.validate_mismatched {p : Payload} (h : p.belongsTo name = false) :
    p.validate pool name = .error (.payloadMismatch name p.kind) := by
  unfold Payload.validate
  rw [h, if_neg Bool.false_ne_true]

/-- A payload that goes with the name is refused for its first fault. -/
theorem Payload.validate_eq {p : Payload} (ruled : name.hasReferenceRules = true)
    (typed : p.isRaw = false) (belongs : p.belongsTo name = true) :
    p.validate pool name = (p.fault? pool name).elim (.ok ()) .error := by
  have announced : name.payloadKind? = some p.kind := by
    unfold Payload.belongsTo at belongs
    rw [typed, Bool.false_or] at belongs
    exact eq_of_beq belongs
  have notBody : p.kind ≠ .code := by
    intro body
    rw [body] at announced
    exact AttributeName.payloadKind?_ne_code ruled announced
  unfold Payload.validate
  rw [if_pos belongs, forM_validate_eq, Payload.findSome?_references announced notBody]

end Faults

/-! ## Validation gives the verdict -/

namespace Attribute

variable {pool : Pool} {a : Attribute}

theorem validate_of_none (outside : pool.get? a.name = none) :
    a.validate pool = .error (.nameOutOfBounds a.name pool.size) := by
  unfold validate
  rw [outside]

theorem validate_of_ne_utf8 {entry : Entry} (found : pool.get? a.name = some entry)
    (h : ∀ text, entry ≠ .utf8 text) : a.validate pool = .error (.nameNotUtf8 a.name) := by
  unfold validate
  rw [found]
  cases entry with
  | utf8 text => exact absurd rfl (h text)
  | _ => rfl

theorem validate_of_unknown {text : String} (named : pool.get? a.name = some (.utf8 text))
    (unknown : AttributeName.ofString? text = none) : a.validate pool = .ok () := by
  simp only [validate, named, unknown]

section Known

variable {text : String} {name : AttributeName} (named : pool.get? a.name = some (.utf8 text))
  (known : AttributeName.ofString? text = some name)

include named known

theorem validate_of_known :
    a.validate pool =
      if name.hasReferenceRules && !a.payload.isRaw then a.payload.validate pool name
      else .ok () := by
  simp only [validate, named, known]

theorem validate_of_unruled (h : name.hasReferenceRules = false ∨ a.payload.isRaw = true) :
    a.validate pool = .ok () := by
  rw [validate_of_known named known]
  rcases h with ruled | raw
  · rw [ruled, Bool.false_and, if_neg Bool.false_ne_true]
  · rw [raw, Bool.not_true, Bool.and_false, if_neg Bool.false_ne_true]

theorem validate_of_ruled (ruled : name.hasReferenceRules = true)
    (typed : a.payload.isRaw = false) : a.validate pool = a.payload.validate pool name := by
  rw [validate_of_known named known, ruled, typed, Bool.not_false, Bool.and_self, if_pos rfl]

end Known

/-- Validation gives a verdict. -/
theorem verdict_validate (pool : Pool) (a : Attribute) : a.Verdict pool (a.validate pool) := by
  cases found : pool.get? a.name with
  | none =>
      rw [validate_of_none found]
      exact .outside (Pool.get?_eq_none_iff.mp found)
  | some entry =>
      have inside : ¬ (a.name = 0 ∨ pool.size ≤ a.name.toNat) := by
        rw [← Pool.get?_eq_none_iff, found]
        exact nofun
      -- from here on the tests come in the order of their precedence
      by_cases isText : ∃ text, entry = .utf8 text
      · obtain ⟨text, rfl⟩ := isText
        cases known : AttributeName.ofString? text with
        | none =>
            rw [validate_of_unknown found known]
            exact .unknown found known
        | some name =>
            by_cases unchecked : name.hasReferenceRules = false ∨ a.payload.isRaw = true
            · rw [validate_of_unruled found known unchecked]
              exact .unruled found known unchecked
            · have ruled : name.hasReferenceRules = true :=
                Bool.not_eq_false _ ▸ fun h => unchecked (.inl h)
              have typed : a.payload.isRaw = false :=
                Bool.not_eq_true _ ▸ fun h => unchecked (.inr h)
              rw [validate_of_ruled found known ruled typed]
              cases belongs : a.payload.belongsTo name with
              | false =>
                  rw [Payload.validate_mismatched belongs]
                  exact .mismatched found known ruled typed belongs
              | true =>
                  rw [Payload.validate_eq ruled typed belongs]
                  cases fault : a.payload.fault? pool name with
                  | none =>
                      have obeyed := Payload.fault?_eq_none_iff.mp fault
                      exact .sound found known ruled typed belongs obeyed
                  | some v => exact .unsound found known ruled typed belongs fault
      · have noText : ∀ text, entry ≠ .utf8 text := fun text h => isText ⟨text, h⟩
        rw [validate_of_ne_utf8 found noText]
        refine .unnamed ⟨fun h => inside (.inl h), Nat.lt_of_not_le fun h => inside (.inr h)⟩ ?_
        intro text h
        rw [found, Option.some.injEq] at h
        exact noText text h

/-- Nothing but the verdict is the result of validation. -/
theorem validate_of_verdict {r : Except Violation Unit} (h : a.Verdict pool r) :
    a.validate pool = r := by
  cases h with
  | outside h => exact validate_of_none (Pool.get?_eq_none_iff.mpr h)
  | unnamed inside h =>
      cases found : pool.get? a.name with
      | none =>
          rcases Pool.get?_eq_none_iff.mp found with zero | large
          · exact absurd zero inside.1
          · exact absurd inside.2 (Nat.not_lt_of_le large)
      | some entry =>
          refine validate_of_ne_utf8 found fun text same => ?_
          rw [same] at found
          exact h text found
  | unknown named h => exact validate_of_unknown named h
  | unruled named known h => exact validate_of_unruled named known h
  | mismatched named known ruled typed h =>
      rw [validate_of_ruled named known ruled typed, Payload.validate_mismatched h]
  | sound named known ruled typed belongs h =>
      rw [validate_of_ruled named known ruled typed, Payload.validate_eq ruled typed belongs,
        Payload.fault?_eq_none_iff.mpr h]
      rfl
  | unsound named known ruled typed belongs h =>
      rw [validate_of_ruled named known ruled typed, Payload.validate_eq ruled typed belongs, h]
      rfl

/-- Validation decides the rules: its result is the verdict on the attribute, and reports the first
violation if there is one. -/
theorem validate_eq_iff_verdict {r : Except Violation Unit} :
    a.validate pool = r ↔ a.Verdict pool r := by
  constructor
  · intro h
    rw [← h]
    exact verdict_validate pool a
  · exact validate_of_verdict

end Attribute

end JvmClass
