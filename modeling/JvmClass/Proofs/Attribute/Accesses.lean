import JvmClass.Proofs.Attribute.Counting
import JvmClass.Proofs.Attribute.Dependence

/-!
# JvmClass.Proofs.Attribute.Accesses — which slots are collected from an attribute.

Who drops constants relies on `Attribute.accesses`: a slot that is missed there may be dropped
although the attribute still needs it, and nothing would fail at once.  Here the fields that hold
the number of a slot are told without any list.  `Names` has one constructor for each such field, at
whatever depth it stands in a tree of annotations and values; so a field that the collection misses,
or one that it takes for a number, would be seen (`Attribute.mem_accesses_iff`).

What is not named plays no part.  `Attribute.blank` wipes out code, raw bytes, the places of type
annotations, flags and the stretches of handlers, and the collection is the same as before.
-/

namespace JvmClass

/-! ## Fields that name slots -/

mutual

/-- A field of the annotation, or of a value in it, holds the number. -/
inductive AnnotationNode.Names (i : UInt16) : AnnotationNode → Prop
  | type {pairs : List ElementPair} : AnnotationNode.Names i ⟨i, pairs⟩
  | element {type : UInt16} {pairs : List ElementPair} {value : ElementValue} :
      ⟨i, value⟩ ∈ pairs → AnnotationNode.Names i ⟨type, pairs⟩
  | value {type name : UInt16} {pairs : List ElementPair} {value : ElementValue} :
      ⟨name, value⟩ ∈ pairs → ElementValue.Names i value → AnnotationNode.Names i ⟨type, pairs⟩

/-- A field of the value, or of what stands in it, holds the number. -/
inductive ElementValue.Names (i : UInt16) : ElementValue → Prop
  | primitive {tag : UInt8} : ElementValue.Names i (.primitive tag i)
  | string : ElementValue.Names i (.string i)
  | enumType {constant : UInt16} : ElementValue.Names i (.enum i constant)
  | enumConstant {type : UInt16} : ElementValue.Names i (.enum type i)
  | classInfo : ElementValue.Names i (.classInfo i)
  | nested {a : AnnotationNode} : AnnotationNode.Names i a → ElementValue.Names i (.nested a)
  | array {values : List ElementValue} {value : ElementValue} :
      value ∈ values → ElementValue.Names i value → ElementValue.Names i (.array values)

end

/-- A field of the payload holds the number.  The attributes in a body do not count, and raw bytes
have no fields. -/
inductive Payload.Names (i : UInt16) : Payload → Prop
  | constantValue : Names i (.constantValue i)
  | annotated {list : List AnnotationNode} {a : AnnotationNode} :
      a ∈ list → a.Names i → Names i (.annotations list)
  | typeAnnotated {list : List TypeAnnotationNode} {a : TypeAnnotationNode} :
      a ∈ list → a.node.Names i → Names i (.typeAnnotations list)
  | parameterAnnotated {parameters : List (List AnnotationNode)} {list : List AnnotationNode}
      {a : AnnotationNode} :
      list ∈ parameters → a ∈ list → a.Names i → Names i (.parameterAnnotations parameters)
  | annotationDefault {value : ElementValue} :
      value.Names i → Names i (.annotationDefault value)
  | nestHost : Names i (.nestHost i)
  | nestMember {classes : List UInt16} : i ∈ classes → Names i (.nestMembers classes)
  | enclosingClass {method : UInt16} : Names i (.enclosingMethod i method)
  | enclosingMethod {owner : UInt16} : Names i (.enclosingMethod owner i)
  | exception {classes : List UInt16} : i ∈ classes → Names i (.exceptions classes)
  | innerClass {classes : List InnerClass} {c : InnerClass} :
      c ∈ classes → c.inner = i → Names i (.innerClasses classes)
  | outerClass {classes : List InnerClass} {c : InnerClass} :
      c ∈ classes → c.outer = i → Names i (.innerClasses classes)
  | innerName {classes : List InnerClass} {c : InnerClass} :
      c ∈ classes → c.name = i → Names i (.innerClasses classes)
  | catchType {body : CodeBody} {h : Handler} :
      h ∈ body.handlers → h.catchType = i → Names i (.code body)

/-- The name of the attribute is the number, or a field of its payload holds it. -/
def Attribute.Names (i : UInt16) (a : Attribute) : Prop :=
  a.name = i ∨ a.payload.Names i

/-! ## The list of references holds these fields -/

section Listed

variable {i : UInt16}

mutual

theorem AnnotationNode.mem_references_iff :
    ∀ a : AnnotationNode, i ∈ a.references.map Reference.index ↔ a.Names i
  | ⟨type, pairs⟩ => by
    rw [AnnotationNode.references, List.map_cons, List.mem_cons,
      ElementPair.mem_referencesAll_iff pairs]
    constructor
    · rintro (rfl | ⟨⟨name, value⟩, mem, rfl | named⟩)
      · exact .type
      · exact .element mem
      · exact .value mem named
    · intro named
      cases named with
      | type => exact .inl rfl
      | element mem => exact .inr ⟨_, mem, .inl rfl⟩
      | value mem named => exact .inr ⟨_, mem, .inr named⟩

theorem ElementPair.mem_referencesAll_iff :
    ∀ pairs : List ElementPair, i ∈ (ElementPair.referencesAll pairs).map Reference.index ↔
      ∃ pair ∈ pairs, pair.name = i ∨ pair.value.Names i
  | [] => by simp [ElementPair.referencesAll]
  | ⟨name, value⟩ :: rest => by
    rw [ElementPair.referencesAll, List.map_cons, List.mem_cons, List.map_append, List.mem_append,
      ElementValue.mem_references_iff value, ElementPair.mem_referencesAll_iff rest]
    simp only [List.mem_cons, exists_eq_or_imp, or_assoc, Reference.required, eq_comm]

theorem ElementValue.mem_references_iff :
    ∀ value : ElementValue, i ∈ value.references.map Reference.index ↔ value.Names i
  | .primitive tag constant => by
    rw [ElementValue.references, List.map_singleton, List.mem_singleton]
    constructor
    · rintro rfl
      exact .primitive
    · rintro ⟨⟩
      rfl
  | .string text => by
    rw [ElementValue.references, List.map_singleton, List.mem_singleton]
    constructor
    · rintro rfl
      exact .string
    · rintro ⟨⟩
      rfl
  | .enum type constant => by
    rw [ElementValue.references, List.map_cons, List.mem_cons, List.map_singleton,
      List.mem_singleton]
    constructor
    · rintro (rfl | rfl)
      · exact .enumType
      · exact .enumConstant
    · intro named
      cases named with
      | enumType => exact .inl rfl
      | enumConstant => exact .inr rfl
  | .classInfo constant => by
    rw [ElementValue.references, List.map_singleton, List.mem_singleton]
    constructor
    · rintro rfl
      exact .classInfo
    · rintro ⟨⟩
      rfl
  | .nested a => by
    rw [ElementValue.references, AnnotationNode.mem_references_iff a]
    constructor
    · exact .nested
    · intro named
      cases named with
      | nested inner => exact inner
  | .array values => by
    rw [ElementValue.references, ElementValue.mem_referencesAll_iff values]
    constructor
    · rintro ⟨value, mem, named⟩
      exact .array mem named
    · intro named
      cases named with
      | array mem named => exact ⟨_, mem, named⟩

theorem ElementValue.mem_referencesAll_iff :
    ∀ values : List ElementValue, i ∈ (ElementValue.referencesAll values).map Reference.index ↔
      ∃ value ∈ values, value.Names i
  | [] => by simp [ElementValue.referencesAll]
  | value :: rest => by
    rw [ElementValue.referencesAll, List.map_append, List.mem_append,
      ElementValue.mem_references_iff value, ElementValue.mem_referencesAll_iff rest]
    simp only [List.mem_cons, exists_eq_or_imp]

end

theorem mem_map_required_iff {tag : Tag} {indices : List UInt16} :
    i ∈ (indices.map (Reference.required tag)).map Reference.index ↔ i ∈ indices := by
  have same : Reference.index ∘ Reference.required tag = id := rfl
  rw [List.map_map, same, List.map_id]

theorem mem_map_flatMap_iff {α : Type} {f : α → List Reference} {as : List α} :
    i ∈ (as.flatMap f).map Reference.index ↔ ∃ a ∈ as, i ∈ (f a).map Reference.index := by
  rw [List.map_flatMap, List.mem_flatMap]

theorem Attribute.mem_referencesAll_iff {as : List Attribute} :
    i ∈ (Attribute.referencesAll as).map Reference.index ↔
      ∃ a ∈ as, i ∈ a.references.map Reference.index := by
  induction as with
  | nil => simp [Attribute.referencesAll]
  | cons a as ih =>
      rw [Attribute.referencesAll, List.map_append, List.mem_append, ih]
      simp only [List.mem_cons, exists_eq_or_imp]

/-- The references of a body are those of its handlers and those of the attributes in it. -/
theorem CodeBody.mem_references_iff {b : CodeBody} :
    i ∈ b.references.map Reference.index ↔ (∃ h ∈ b.handlers, h.catchType = i) ∨
      ∃ a ∈ b.attributes, i ∈ a.references.map Reference.index := by
  obtain ⟨_, _, _, handlers, attributes⟩ := b
  rw [CodeBody.references, List.map_append, List.mem_append, Attribute.mem_referencesAll_iff,
    List.map_map, List.mem_map]
  rfl

theorem InnerClass.mem_references_iff {c : InnerClass} :
    i ∈ c.references.map Reference.index ↔ c.inner = i ∨ c.outer = i ∨ c.name = i := by
  simp [InnerClass.references, Reference.required, Reference.orAbsent, eq_comm]

/-- What a payload lists are its own fields, unless it is a body. -/
theorem Payload.mem_references_iff_of_flat {p : Payload} (flat : p.kind ≠ .code) :
    i ∈ p.references.map Reference.index ↔ p.Names i := by
  cases p with
  | code body => exact absurd rfl flat
  | constantValue constant =>
      rw [Payload.references, List.map_singleton, List.mem_singleton]
      constructor
      · rintro rfl
        exact .constantValue
      · rintro ⟨⟩
        rfl
  | nestHost host =>
      rw [Payload.references, List.map_singleton, List.mem_singleton]
      constructor
      · rintro rfl
        exact .nestHost
      · rintro ⟨⟩
        rfl
  | nestMembers classes =>
      rw [Payload.references, mem_map_required_iff]
      constructor
      · exact .nestMember
      · intro named
        cases named with
        | nestMember mem => exact mem
  | exceptions classes =>
      rw [Payload.references, mem_map_required_iff]
      constructor
      · exact .exception
      · intro named
        cases named with
        | exception mem => exact mem
  | annotations list =>
      rw [Payload.references, mem_map_flatMap_iff]
      simp only [AnnotationNode.mem_references_iff]
      constructor
      · rintro ⟨a, mem, named⟩
        exact .annotated mem named
      · intro named
        cases named with
        | annotated mem named => exact ⟨_, mem, named⟩
  | typeAnnotations list =>
      rw [Payload.references, mem_map_flatMap_iff]
      simp only [TypeAnnotationNode.references, AnnotationNode.mem_references_iff]
      constructor
      · rintro ⟨a, mem, named⟩
        exact .typeAnnotated mem named
      · intro named
        cases named with
        | typeAnnotated mem named => exact ⟨_, mem, named⟩
  | parameterAnnotations parameters =>
      rw [Payload.references, mem_map_flatMap_iff]
      simp only [AnnotationNode.mem_references_iff, List.mem_flatten]
      constructor
      · rintro ⟨a, ⟨list, parameter, mem⟩, named⟩
        exact .parameterAnnotated parameter mem named
      · intro named
        cases named with
        | parameterAnnotated parameter mem named => exact ⟨_, ⟨_, parameter, mem⟩, named⟩
  | annotationDefault value =>
      rw [Payload.references, ElementValue.mem_references_iff]
      constructor
      · exact .annotationDefault
      · intro named
        cases named with
        | annotationDefault inner => exact inner
  | enclosingMethod owner method =>
      rw [Payload.references, List.map_cons, List.mem_cons, List.map_singleton, List.mem_singleton]
      constructor
      · rintro (rfl | rfl)
        · exact .enclosingClass
        · exact .enclosingMethod
      · intro named
        cases named with
        | enclosingClass => exact .inl rfl
        | enclosingMethod => exact .inr rfl
  | innerClasses classes =>
      rw [Payload.references, mem_map_flatMap_iff]
      simp only [InnerClass.mem_references_iff]
      constructor
      · rintro ⟨c, mem, inner | outer | name⟩
        · exact .innerClass mem inner
        · exact .outerClass mem outer
        · exact .innerName mem name
      · intro named
        cases named with
        | innerClass mem inner => exact ⟨_, mem, .inl inner⟩
        | outerClass mem outer => exact ⟨_, mem, .inr (.inl outer)⟩
        | innerName mem name => exact ⟨_, mem, .inr (.inr name)⟩
  | raw bytes =>
      constructor
      · intro listed
        cases listed
      · intro named
        cases named

/-- An attribute lists its name, the fields of its payload, and what the attributes in its body
list. -/
theorem Attribute.mem_references_iff {a : Attribute} :
    i ∈ a.references.map Reference.index ↔
      a.Names i ∨ ∃ b ∈ a.payload.inside, i ∈ b.references.map Reference.index := by
  obtain ⟨name, p⟩ := a
  have payload : i ∈ p.references.map Reference.index ↔
      p.Names i ∨ ∃ b ∈ p.inside, i ∈ b.references.map Reference.index := by
    by_cases isBody : p.kind = .code
    · obtain ⟨body, rfl⟩ := Payload.kind_eq_code_iff.mp isBody
      have handlers : Payload.Names i (.code body) ↔ ∃ h ∈ body.handlers, h.catchType = i := by
        constructor
        · intro named
          cases named with
          | catchType mem caught => exact ⟨_, mem, caught⟩
        · rintro ⟨h, mem, caught⟩
          exact .catchType mem caught
      rw [Payload.references, CodeBody.mem_references_iff, handlers]
      rfl
    · rw [Payload.mem_references_iff_of_flat isBody, Payload.inside_of_ne_code isBody]
      simp
  rw [Attribute.references, List.map_cons, List.mem_cons, payload, ← or_assoc]
  unfold Attribute.Names
  rw [eq_comm (a := i)]
  rfl

/-- The fields at all depths are listed, and nothing else is. -/
theorem Attribute.mem_references_iff_inside {a : Attribute} :
    i ∈ a.references.map Reference.index ↔ ∃ b : Attribute, (b = a ∨ b.Inside a) ∧ b.Names i := by
  induction a using Attribute.induction_inside with
  | step a ih =>
      rw [Attribute.mem_references_iff]
      constructor
      · rintro (here | ⟨b, mem, listed⟩)
        · exact ⟨a, .inl rfl, here⟩
        · obtain ⟨c, place, named⟩ := (ih b mem).mp listed
          exact ⟨c, .inr (Attribute.inside_iff.mpr ⟨b, mem, place⟩), named⟩
      · rintro ⟨c, rfl | within, named⟩
        · exact .inl named
        · obtain ⟨b, mem, place⟩ := Attribute.inside_iff.mp within
          exact .inr ⟨b, mem, (ih b mem).mpr ⟨c, place, named⟩⟩

end Listed

/-! ## Fields that do not count -/

/-- The annotation with nothing said about where it stands. -/
def TypeAnnotationNode.blank (a : TypeAnnotationNode) : TypeAnnotationNode :=
  { a with targetType := 0, target := .empty, path := [] }

/-- The inner class without its flags. -/
def InnerClass.blank (c : InnerClass) : InnerClass :=
  { c with flags := ⟨0⟩ }

/-- The handler without the places in the code that it is about. -/
def Handler.blank (h : Handler) : Handler :=
  { h with startPc := 0, endPc := 0, handlerPc := 0 }

mutual

/-- The attribute with everything wiped out that is no name, annotation, value or reference. -/
def Attribute.blank : Attribute → Attribute
  | ⟨name, payload⟩ => ⟨name, payload.blank⟩

/-- Of raw bytes nothing is left. -/
def Payload.blank : Payload → Payload
  | .typeAnnotations list => .typeAnnotations (list.map TypeAnnotationNode.blank)
  | .innerClasses classes => .innerClasses (classes.map InnerClass.blank)
  | .code body => .code body.blank
  | .raw _ => .raw []
  | p => p

/-- Of a body, the classes that its handlers take and its attributes are left. -/
def CodeBody.blank : CodeBody → CodeBody
  | ⟨_, _, _, handlers, attributes⟩ =>
    ⟨0, 0, [], handlers.map Handler.blank, Attribute.blankAll attributes⟩

/-- Each of the attributes, wiped out. -/
def Attribute.blankAll : List Attribute → List Attribute
  | [] => []
  | a :: rest => a.blank :: Attribute.blankAll rest

end

mutual

/-- What was wiped out names nothing. -/
theorem Attribute.references_blank : ∀ a : Attribute, a.blank.references = a.references
  | ⟨name, payload⟩ => by
    rw [Attribute.blank, Attribute.references, Attribute.references,
      Payload.references_blank payload]

theorem Payload.references_blank : ∀ p : Payload, p.blank.references = p.references
  | .typeAnnotations list => by
    rw [Payload.blank, Payload.references, Payload.references, List.flatMap_map]
    rfl
  | .innerClasses classes => by
    rw [Payload.blank, Payload.references, Payload.references, List.flatMap_map]
    rfl
  | .code body => by
    rw [Payload.blank, Payload.references, Payload.references, CodeBody.references_blank body]
  | .raw bytes => rfl
  | .constantValue _ | .annotations _ | .parameterAnnotations _ | .annotationDefault _
  | .nestHost _ | .nestMembers _ | .enclosingMethod _ _ | .exceptions _ => rfl

theorem CodeBody.references_blank : ∀ b : CodeBody, b.blank.references = b.references
  | ⟨_, _, _, handlers, attributes⟩ => by
    rw [CodeBody.blank, CodeBody.references, CodeBody.references, List.map_map,
      Attribute.referencesAll_blankAll attributes]
    rfl

theorem Attribute.referencesAll_blankAll : ∀ as : List Attribute,
    Attribute.referencesAll (Attribute.blankAll as) = Attribute.referencesAll as
  | [] => rfl
  | a :: rest => by
    rw [Attribute.blankAll, Attribute.referencesAll, Attribute.referencesAll,
      Attribute.references_blank a, Attribute.referencesAll_blankAll rest]

end

/-! ## The collected slots -/

/-- Collected are the numbers that the name of the attribute or a field of its payload holds, and
all that is collected from the attributes in it; put at once, the numbers in these fields of the
attribute and of those in it, at any depth.  The number 0 is not collected, and what no reference is
made of plays no part. -/
theorem Attribute.mem_accesses_iff (a : Attribute) :
    (∀ i, i ∈ a.accesses ↔ i ≠ 0 ∧ a.Names i ∨ ∃ b : Attribute, b.Inside a ∧ i ∈ b.accesses) ∧
    (∀ i, i ∈ a.accesses ↔ i ≠ 0 ∧ ∃ b : Attribute, (b = a ∨ b.Inside a) ∧ b.Names i) ∧
    a.blank.accesses = a.accesses := by
  have named : ∀ (a : Attribute) (i : UInt16), i ∈ a.accesses ↔
      i ≠ 0 ∧ ∃ b : Attribute, (b = a ∨ b.Inside a) ∧ b.Names i := by
    intro a i
    rw [← mem_references_iff_inside, List.mem_map]
    exact mem_accessesOf_iff
  refine ⟨fun i => ?_, named a, ?_⟩
  · rw [named]
    constructor
    · rintro ⟨nonzero, b, rfl | within, here⟩
      · exact .inl ⟨nonzero, here⟩
      · exact .inr ⟨b, within, (named b i).mpr ⟨nonzero, b, .inl rfl, here⟩⟩
    · rintro (⟨nonzero, here⟩ | ⟨b, within, collected⟩)
      · exact ⟨nonzero, a, .inl rfl, here⟩
      · obtain ⟨nonzero, c, place, here⟩ := (named b i).mp collected
        refine ⟨nonzero, c, .inr ?_, here⟩
        rcases place with rfl | deeper
        · exact within
        · exact deeper.trans within
  · unfold accesses
    rw [references_blank]

/-- A body in a body, and an annotation in an array.  The second handler takes every exception, and
the number 3 that the code loads is not collected. -/
example : (Attribute.accesses ⟨1, .code ⟨1, 1, [0x12, 0x03, 0xB1], [⟨0, 2, 2, 4⟩, ⟨0, 2, 2, 0⟩],
    [⟨5, .code ⟨0, 0, [], [],
      [⟨6, .annotationDefault (.array [.nested ⟨7, [⟨4, .string 8⟩]⟩])⟩]⟩⟩]⟩⟩).toList =
    [1, 4, 5, 6, 7, 8] := by
  rfl

end JvmClass
