import JvmClass.Annotation.Shape

/-!
# JvmClass.Proofs.Annotation.Fits — trees that can be told from their bytes.

A tree that was built by hand may carry a tag that announces another shape of value, or a target
type that selects another target; `Legal` rules out both.  `height` counts the annotations and
arrays within values, one inside the other.  A tree `Fits` so many levels if it is legal and not
higher than that.
-/

namespace JvmClass

/-! ## Heights -/

mutual

/-- How deep annotations and arrays stand in one another below the values of the annotation. -/
def AnnotationNode.height : AnnotationNode → Nat
  | ⟨_, pairs⟩ => ElementPair.heightAll pairs

/-- The greatest height among the values of the pairs. -/
def ElementPair.heightAll : List ElementPair → Nat
  | [] => 0
  | ⟨_, value⟩ :: rest => max value.height (ElementPair.heightAll rest)

/-- A further annotation and an array each stand one level above what they hold. -/
def ElementValue.height : ElementValue → Nat
  | .primitive .. => 0
  | .string _ => 0
  | .enum .. => 0
  | .classInfo _ => 0
  | .nested value => value.height + 1
  | .array values => ElementValue.heightAll values + 1

/-- The greatest height among the values. -/
def ElementValue.heightAll : List ElementValue → Nat
  | [] => 0
  | value :: rest => max value.height (ElementValue.heightAll rest)

end

/-! ## Tags and target types -/

mutual

/-- Every primitive value in the annotation carries the tag of a primitive type. -/
def AnnotationNode.Legal : AnnotationNode → Prop
  | ⟨_, pairs⟩ => ElementPair.LegalAll pairs

/-- The values of the pairs are legal. -/
def ElementPair.LegalAll : List ElementPair → Prop
  | [] => True
  | ⟨_, value⟩ :: rest => value.Legal ∧ ElementPair.LegalAll rest

/-- A primitive value carries one of the letters B, C, D, F, I, J, S and Z. -/
def ElementValue.Legal : ElementValue → Prop
  | .primitive tag _ => tag ∈ ElementShape.primitiveTags
  | .string _ => True
  | .enum .. => True
  | .classInfo _ => True
  | .nested value => value.Legal
  | .array values => ElementValue.LegalAll values

/-- The values are legal. -/
def ElementValue.LegalAll : List ElementValue → Prop
  | [] => True
  | value :: rest => value.Legal ∧ ElementValue.LegalAll rest

end

/-- The value is legal and nests no deeper than the levels allow. -/
def ElementValue.Fits (levels : Nat) (v : ElementValue) : Prop :=
  v.Legal ∧ v.height ≤ levels

/-- The annotation is legal and nests no deeper than the levels allow. -/
def AnnotationNode.Fits (levels : Nat) (a : AnnotationNode) : Prop :=
  a.Legal ∧ a.height ≤ levels

/-- The target type selects the target that the annotation has, and the annotation fits. -/
def TypeAnnotationNode.Fits (levels : Nat) (a : TypeAnnotationNode) : Prop :=
  TargetShape.ofType? a.targetType = some a.target.shape ∧ a.node.Fits levels

/-! ## Fitting, one level at a time -/

theorem ElementPair.legalAll_iff {pairs : List ElementPair} :
    ElementPair.LegalAll pairs ↔ ∀ p ∈ pairs, p.value.Legal := by
  induction pairs with
  | nil => simp [ElementPair.LegalAll]
  | cons p pairs ih =>
      obtain ⟨name, value⟩ := p
      rw [ElementPair.LegalAll, ih, List.forall_mem_cons]

theorem ElementPair.heightAll_le_iff {pairs : List ElementPair} {n : Nat} :
    ElementPair.heightAll pairs ≤ n ↔ ∀ p ∈ pairs, p.value.height ≤ n := by
  induction pairs with
  | nil => simp [ElementPair.heightAll]
  | cons p pairs ih =>
      obtain ⟨name, value⟩ := p
      rw [ElementPair.heightAll, Nat.max_le, ih, List.forall_mem_cons]

theorem ElementValue.legalAll_iff {values : List ElementValue} :
    ElementValue.LegalAll values ↔ ∀ v ∈ values, v.Legal := by
  induction values with
  | nil => simp [ElementValue.LegalAll]
  | cons v values ih =>
      rw [ElementValue.LegalAll, ih, List.forall_mem_cons]

theorem ElementValue.heightAll_le_iff {values : List ElementValue} {n : Nat} :
    ElementValue.heightAll values ≤ n ↔ ∀ v ∈ values, v.height ≤ n := by
  induction values with
  | nil => simp [ElementValue.heightAll]
  | cons v values ih =>
      rw [ElementValue.heightAll, Nat.max_le, ih, List.forall_mem_cons]

theorem AnnotationNode.fits_iff {a : AnnotationNode} {levels : Nat} :
    a.Fits levels ↔ ∀ p ∈ a.pairs, p.value.Fits levels := by
  obtain ⟨type, pairs⟩ := a
  rw [AnnotationNode.Fits, AnnotationNode.Legal, AnnotationNode.height, ElementPair.legalAll_iff,
    ElementPair.heightAll_le_iff]
  constructor
  · exact fun h p hp => ⟨h.1 p hp, h.2 p hp⟩
  · exact fun h => ⟨fun p hp => (h p hp).1, fun p hp => (h p hp).2⟩

theorem ElementValue.fits_array_iff {values : List ElementValue} {levels : Nat} :
    (ElementValue.array values).Fits (levels + 1) ↔ ∀ v ∈ values, v.Fits levels := by
  rw [ElementValue.Fits, ElementValue.Legal, ElementValue.height, Nat.add_le_add_iff_right,
    ElementValue.legalAll_iff, ElementValue.heightAll_le_iff]
  constructor
  · exact fun h v hv => ⟨h.1 v hv, h.2 v hv⟩
  · exact fun h => ⟨fun v hv => (h v hv).1, fun v hv => (h v hv).2⟩

theorem ElementValue.fits_nested_iff {a : AnnotationNode} {levels : Nat} :
    (ElementValue.nested a).Fits (levels + 1) ↔ a.Fits levels := by
  rw [ElementValue.Fits, ElementValue.Legal, ElementValue.height, Nat.add_le_add_iff_right]
  rfl

/-- The tag of a legal value announces its shape. -/
theorem ElementValue.ofTag?_of_legal {v : ElementValue} (h : v.Legal) :
    ElementShape.ofTag? v.tag = some v.shape := by
  cases v with
  | primitive tag constant => exact if_pos h
  | _ => rfl

end JvmClass
