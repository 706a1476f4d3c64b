import JvmClass.Proofs.Annotation.Emission
import JvmClass.Proofs.Bytes.Parts

/-!
# JvmClass.Proofs.Annotation.Parts — annotations, flattened into what is written.

Each tree has two readings here.  `parts` lists what its writer hands over, the counts among it.
`CountsFit` says that all tables of the tree are short enough, and knows nothing of an order.  All
parts fit just if the counts of the tree do.
-/

namespace JvmClass

open Writer

/-! ## Values and annotations -/

mutual

/-- The type, the count of the pairs and the pairs. -/
def AnnotationNode.parts : AnnotationNode → List Part
  | ⟨type, pairs⟩ =>
    .fixed (.ofWord16 type) :: .count16 pairs.length :: ElementPair.partsAll pairs

/-- A name and a value for each pair. -/
def ElementPair.partsAll : List ElementPair → List Part
  | [] => []
  | ⟨name, value⟩ :: rest =>
    .fixed (.ofWord16 name) :: (value.parts ++ ElementPair.partsAll rest)

/-- The tag and what it announces. -/
def ElementValue.parts : ElementValue → List Part
  | .primitive tag constant => [.fixed [tag], .fixed (.ofWord16 constant)]
  | .string text => [.fixed [0x73], .fixed (.ofWord16 text)]
  | .enum type constant => [.fixed [0x65], .fixed (.ofWord16 type), .fixed (.ofWord16 constant)]
  | .classInfo constant => [.fixed [0x63], .fixed (.ofWord16 constant)]
  | .nested value => .fixed [0x40] :: value.parts
  | .array values => .fixed [0x5B] :: .count16 values.length :: ElementValue.partsAll values

/-- The values of an array. -/
def ElementValue.partsAll : List ElementValue → List Part
  | [] => []
  | value :: rest => value.parts ++ ElementValue.partsAll rest

end

mutual

/-- There are no more pairs than two bytes can count, and the same is true of the tables in them. -/
def AnnotationNode.CountsFit : AnnotationNode → Prop
  | ⟨_, pairs⟩ => pairs.length < 0x10000 ∧ ElementPair.CountsFitAll pairs

/-- The tables in the values of the pairs are short enough. -/
def ElementPair.CountsFitAll : List ElementPair → Prop
  | [] => True
  | ⟨_, value⟩ :: rest => value.CountsFit ∧ ElementPair.CountsFitAll rest

/-- Arrays have no more values than two bytes can count, and annotations no more pairs. -/
def ElementValue.CountsFit : ElementValue → Prop
  | .nested value => value.CountsFit
  | .array values => values.length < 0x10000 ∧ ElementValue.CountsFitAll values
  | _ => True

/-- The tables in the values are short enough. -/
def ElementValue.CountsFitAll : List ElementValue → Prop
  | [] => True
  | value :: rest => value.CountsFit ∧ ElementValue.CountsFitAll rest

end

mutual

theorem AnnotationNode.write_eq_parts : ∀ a : AnnotationNode, a.write = Part.writeAll a.parts
  | ⟨type, pairs⟩ => by
    rw [AnnotationNode.write, ElementPair.writeAll_eq_parts pairs]
    rfl

theorem ElementPair.writeAll_eq_parts : ∀ pairs : List ElementPair,
    ElementPair.writeAll pairs = Part.writeAll (ElementPair.partsAll pairs)
  | [] => rfl
  | ⟨name, value⟩ :: rest => by
    rw [ElementPair.writeAll, value.write_eq_parts, ElementPair.writeAll_eq_parts rest,
      ← Part.writeAll_append]
    rfl

theorem ElementValue.write_eq_parts : ∀ v : ElementValue, v.write = Part.writeAll v.parts
  | .primitive _ _ | .string _ | .enum _ _ | .classInfo _ => by
    rw [ElementValue.write, ElementValue.parts]
    simp only [Part.writeAll_cons, Part.writeAll_nil, bind_pure_unit]
    rfl
  | .nested value => by
    rw [ElementValue.write, value.write_eq_parts]
    rfl
  | .array values => by
    rw [ElementValue.write, ElementValue.writeAll_eq_parts values]
    rfl

theorem ElementValue.writeAll_eq_parts : ∀ values : List ElementValue,
    ElementValue.writeAll values = Part.writeAll (ElementValue.partsAll values)
  | [] => rfl
  | value :: rest => by
    rw [ElementValue.writeAll, value.write_eq_parts, ElementValue.writeAll_eq_parts rest,
      ← Part.writeAll_append]
    rfl

end

mutual

theorem AnnotationNode.allFit_parts_iff :
    ∀ a : AnnotationNode, Part.AllFit a.parts ↔ a.CountsFit
  | ⟨type, pairs⟩ => by
    simp [AnnotationNode.parts, AnnotationNode.CountsFit, ElementPair.allFit_partsAll_iff pairs]

theorem ElementPair.allFit_partsAll_iff : ∀ pairs : List ElementPair,
    Part.AllFit (ElementPair.partsAll pairs) ↔ ElementPair.CountsFitAll pairs
  | [] => by simp [ElementPair.partsAll, ElementPair.CountsFitAll]
  | ⟨name, value⟩ :: rest => by
    simp [ElementPair.partsAll, ElementPair.CountsFitAll, value.allFit_parts_iff,
      ElementPair.allFit_partsAll_iff rest]

theorem ElementValue.allFit_parts_iff : ∀ v : ElementValue, Part.AllFit v.parts ↔ v.CountsFit
  | .primitive _ _ | .string _ | .enum _ _ | .classInfo _ => by
    simp [ElementValue.parts, ElementValue.CountsFit]
  | .nested value => by
    simp [ElementValue.parts, ElementValue.CountsFit, value.allFit_parts_iff]
  | .array values => by
    simp [ElementValue.parts, ElementValue.CountsFit, ElementValue.allFit_partsAll_iff values]

theorem ElementValue.allFit_partsAll_iff : ∀ values : List ElementValue,
    Part.AllFit (ElementValue.partsAll values) ↔ ElementValue.CountsFitAll values
  | [] => by simp [ElementValue.partsAll, ElementValue.CountsFitAll]
  | value :: rest => by
    simp [ElementValue.partsAll, ElementValue.CountsFitAll, value.allFit_parts_iff,
      ElementValue.allFit_partsAll_iff rest]

end

/-! ## Type annotations -/

/-- A start, a length and a variable. -/
def LocalRange.parts (r : LocalRange) : List Part :=
  [.fixed (.ofWord16 r.startPc), .fixed (.ofWord16 r.length), .fixed (.ofWord16 r.index)]

/-- The fields of a target. -/
def Target.parts : Target → List Part
  | .typeParameter parameter => [.fixed [parameter]]
  | .supertype index => [.fixed (.ofWord16 index)]
  | .typeParameterBound parameter bound => [.fixed [parameter], .fixed [bound]]
  | .empty => []
  | .formalParameter parameter => [.fixed [parameter]]
  | .throwsClause index => [.fixed (.ofWord16 index)]
  | .localVariable table => Part.table LocalRange.parts table
  | .handler index => [.fixed (.ofWord16 index)]
  | .instruction offset => [.fixed (.ofWord16 offset)]
  | .typeArgument offset argument => [.fixed (.ofWord16 offset), .fixed [argument]]

/-- A kind and an argument. -/
def PathStep.parts (s : PathStep) : List Part :=
  [.fixed [s.kind], .fixed [s.argument]]

/-- The target type, the target, the path with its count, and the annotation. -/
def TypeAnnotationNode.parts (a : TypeAnnotationNode) : List Part :=
  .fixed [a.targetType] ::
    (a.target.parts ++ .count8 a.path.length :: (a.path.flatMap PathStep.parts ++ a.node.parts))

/-- A variable has its value in no more stretches than two bytes can count. -/
def Target.CountsFit : Target → Prop
  | .localVariable table => table.length < 0x10000
  | _ => True

/-- The path has no more steps than one byte can count. -/
structure TypeAnnotationNode.CountsFit (a : TypeAnnotationNode) : Prop where
  target : a.target.CountsFit
  path : a.path.length < 0x100
  node : a.node.CountsFit

theorem LocalRange.write_eq_parts (r : LocalRange) : r.write = Part.writeAll r.parts := by
  simp only [LocalRange.parts, Part.writeAll_cons, Part.writeAll_nil, bind_pure_unit]
  rfl

theorem LocalRange.allFit_parts (r : LocalRange) : Part.AllFit r.parts := by
  simp [LocalRange.parts]

theorem PathStep.write_eq_parts (s : PathStep) : s.write = Part.writeAll s.parts := by
  simp only [PathStep.parts, Part.writeAll_cons, Part.writeAll_nil, bind_pure_unit]
  rfl

theorem PathStep.allFit_parts (s : PathStep) : Part.AllFit s.parts := by
  simp [PathStep.parts]

theorem Target.write_eq_parts (t : Target) : t.write = Part.writeAll t.parts := by
  cases t with
  | localVariable table => exact Part.writeAll_table fun r _ => r.write_eq_parts
  | _ =>
      simp only [Target.parts, Part.writeAll_cons, Part.writeAll_nil, bind_pure_unit]
      rfl

theorem Target.allFit_parts_iff (t : Target) : Part.AllFit t.parts ↔ t.CountsFit := by
  cases t with
  | localVariable table =>
      rw [Target.parts, Part.allFit_table_iff]
      exact and_iff_left fun r _ => r.allFit_parts
  | _ => simp [Target.parts, Target.CountsFit]

theorem TypeAnnotationNode.write_eq_parts (a : TypeAnnotationNode) :
    a.write = Part.writeAll a.parts := by
  have path : a.path.forM PathStep.write = Part.writeAll (a.path.flatMap PathStep.parts) :=
    Part.writeAll_flatMap fun s _ => s.write_eq_parts
  unfold TypeAnnotationNode.write TypeAnnotationNode.parts
  rw [a.target.write_eq_parts, path, a.node.write_eq_parts]
  simp only [Part.writeAll_cons, Part.writeAll_append]
  rfl

theorem TypeAnnotationNode.allFit_parts_iff (a : TypeAnnotationNode) :
    Part.AllFit a.parts ↔ a.CountsFit := by
  have path : Part.AllFit (a.path.flatMap PathStep.parts) :=
    Part.allFit_flatMap_iff.mpr fun s _ => s.allFit_parts
  simp only [TypeAnnotationNode.parts, Part.allFit_cons_iff, Part.allFit_append_iff,
    Part.fits_fixed, Part.fits_count8_iff, true_and, path, a.target.allFit_parts_iff,
    a.node.allFit_parts_iff]
  exact ⟨fun h => ⟨h.1, h.2.1, h.2.2⟩, fun h => ⟨h.target, h.path, h.node⟩⟩

end JvmClass
