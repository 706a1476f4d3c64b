/-
# JvmClass.Attribute.Name — the attributes the format defines, and what each may carry.

An attribute is named by a string constant.  `AttributeName.ofString?` recognises the names the
format defines; `payloadKind?` gives the kind of payload for those whose contents this library
models. All other attributes carry bytes.
-/

namespace JvmClass

/-- The name of a defined attribute. -/
inductive AttributeName where
  | annotationDefault
  | bootstrapMethods
  | characterRangeTable
  | code
  | compilationId
  | constantValue
  | deprecated
  | enclosingMethod
  | exceptions
  | innerClasses
  | lineNumberTable
  | localVariableTable
  | localVariableTypeTable
  | methodParameters
  | moduleDeclaration
  | moduleHashes
  | moduleMainClass
  | modulePackages
  | moduleResolution
  | moduleTarget
  | nestHost
  | nestMembers
  | permittedSubclasses
  | record
  | runtimeInvisibleAnnotations
  | runtimeInvisibleParameterAnnotations
  | runtimeInvisibleTypeAnnotations
  | runtimeVisibleAnnotations
  | runtimeVisibleParameterAnnotations
  | runtimeVisibleTypeAnnotations
  | signature
  | sourceDebugExtension
  | sourceFile
  | sourceId
  | stackMapTable
  | synthetic
  deriving DecidableEq, Repr

/-- The kinds of payload. -/
inductive PayloadKind where
  | constantValue
  | annotations
  | typeAnnotations
  | parameterAnnotations
  | annotationDefault
  | nestHost
  | nestMembers
  | enclosingMethod
  | exceptions
  | innerClasses
  | code
  | raw
  deriving DecidableEq, Repr

/-- The name of a kind of payload in messages. -/
def PayloadKind.name : PayloadKind → String
  | constantValue => "ConstantValue"
  | annotations => "Annotations"
  | typeAnnotations => "TypeAnnotations"
  | parameterAnnotations => "ParameterAnnotations"
  | annotationDefault => "AnnotationDefault"
  | nestHost => "NestHost"
  | nestMembers => "NestMembers"
  | enclosingMethod => "EnclosingMethod"
  | exceptions => "Exceptions"
  | innerClasses => "InnerClasses"
  | code => "Code"
  | raw => "Raw"

namespace AttributeName

/-- All names, in alphabetical order. -/
def all : List AttributeName :=
  [annotationDefault, bootstrapMethods, characterRangeTable, code, compilationId,
    constantValue, deprecated, enclosingMethod, exceptions, innerClasses, lineNumberTable,
    localVariableTable, localVariableTypeTable, methodParameters, moduleDeclaration,
    moduleHashes, moduleMainClass, modulePackages, moduleResolution, moduleTarget, nestHost,
    nestMembers, permittedSubclasses, record, runtimeInvisibleAnnotations,
    runtimeInvisibleParameterAnnotations, runtimeInvisibleTypeAnnotations,
    runtimeVisibleAnnotations, runtimeVisibleParameterAnnotations,
    runtimeVisibleTypeAnnotations, signature, sourceDebugExtension, sourceFile, sourceId,
    stackMapTable, synthetic]

/-- The text of the string constant that stands for the name. -/
def text : AttributeName → String
  | annotationDefault => "AnnotationDefault"
  | bootstrapMethods => "BootstrapMethods"
  | characterRangeTable => "CharacterRangeTable"
  | code => "Code"
  | compilationId => "CompilationID"
  | constantValue => "ConstantValue"
  | deprecated => "Deprecated"
  | enclosingMethod => "EnclosingMethod"
  | exceptions => "Exceptions"
  | innerClasses => "InnerClasses"
  | lineNumberTable => "LineNumberTable"
  | localVariableTable => "LocalVariableTable"
  | localVariableTypeTable => "LocalVariableTypeTable"
  | methodParameters => "MethodParameters"
  | moduleDeclaration => "Module"
  | moduleHashes => "ModuleHashes"
  | moduleMainClass => "ModuleMainClass"
  | modulePackages => "ModulePackages"
  | moduleResolution => "ModuleResolution"
  | moduleTarget => "ModuleTarget"
  | nestHost => "NestHost"
  | nestMembers => "NestMembers"
  | permittedSubclasses => "PermittedSubclasses"
  | record => "Record"
  | runtimeInvisibleAnnotations => "RuntimeInvisibleAnnotations"
  | runtimeInvisibleParameterAnnotations => "RuntimeInvisibleParameterAnnotations"
  | runtimeInvisibleTypeAnnotations => "RuntimeInvisibleTypeAnnotations"
  | runtimeVisibleAnnotations => "RuntimeVisibleAnnotations"
  | runtimeVisibleParameterAnnotations => "RuntimeVisibleParameterAnnotations"
  | runtimeVisibleTypeAnnotations => "RuntimeVisibleTypeAnnotations"
  | signature => "Signature"
  | sourceDebugExtension => "SourceDebugExtension"
  | sourceFile => "SourceFile"
  | sourceId => "SourceID"
  | stackMapTable => "StackMapTable"
  | synthetic => "Synthetic"

/-- The name a text stands for, if any. -/
def ofString? (s : String) : Option AttributeName :=
  all.find? fun n => n.text == s

/-- The kind of payload an attribute of this name carries, if its contents are modelled. -/
def payloadKind? : AttributeName → Option PayloadKind
  | constantValue => some .constantValue
  | runtimeVisibleAnnotations => some .annotations
  | runtimeInvisibleAnnotations => some .annotations
  | runtimeVisibleTypeAnnotations => some .typeAnnotations
  | runtimeInvisibleTypeAnnotations => some .typeAnnotations
  | runtimeVisibleParameterAnnotations => some .parameterAnnotations
  | runtimeInvisibleParameterAnnotations => some .parameterAnnotations
  | annotationDefault => some .annotationDefault
  | nestHost => some .nestHost
  | nestMembers => some .nestMembers
  | enclosingMethod => some .enclosingMethod
  | exceptions => some .exceptions
  | innerClasses => some .innerClasses
  | code => some .code
  | _ => none

/-- The references an attribute of this name holds have to fit the pool.  A code body answers for
its parts one by one, so it is not among these. -/
def hasReferenceRules : AttributeName → Bool
  | constantValue => true
  | runtimeVisibleAnnotations => true
  | runtimeInvisibleAnnotations => true
  | runtimeVisibleTypeAnnotations => true
  | runtimeInvisibleTypeAnnotations => true
  | runtimeVisibleParameterAnnotations => true
  | runtimeInvisibleParameterAnnotations => true
  | annotationDefault => true
  | nestHost => true
  | nestMembers => true
  | enclosingMethod => true
  | exceptions => true
  | innerClasses => true
  | _ => false

/-- Every reference of an attribute of this name may be absent. -/
def allowsZero : AttributeName → Bool
  | enclosingMethod => true
  | innerClasses => true
  | _ => false

/-! ## Reading a name back -/

/-- The list of names is complete, and no two of them have the same text. -/
@[simp] theorem ofString?_text (n : AttributeName) : ofString? n.text = some n := by
  cases n <;> decide

end AttributeName

end JvmClass
