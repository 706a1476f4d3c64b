import JvmClass.Tag

/-!
# JvmClass.Reference — a field that holds the number of a slot.

A reference says which slot is meant, which kinds of constant may stand there, and whether the field
may hold 0 to mean that there is none.
-/

namespace JvmClass

/-- The kinds of constant that may stand in a slot. -/
inductive Expectation where
  | exactly (tag : Tag)
  /-- The tags whose numbers lie between two, both included. -/
  | range (low high : Tag)
  | oneOf (tags : List Tag)
  deriving DecidableEq

namespace Expectation

/-- What a constant value may be. -/
def constantValue : Expectation :=
  oneOf [.integer, .float, .long, .double, .string]

/-- What a primitive element value may be. -/
def primitive : Expectation :=
  range .integer .double

/-- A constant of this kind may stand in the slot. -/
def accepts : Expectation → Tag → Bool
  | exactly tag, found => found == tag
  | range low high, found => found.between low high
  | oneOf tags, found => tags.contains found

/-- The expectation as validation messages word it. -/
def message : Expectation → String
  | exactly tag => tag.name
  | range low high => low.name ++ "..=" ++ high.name
  | oneOf tags => "one of " ++ ", ".intercalate (tags.map Tag.name)

/-- The expectation with its shape spelled out. -/
def describe : Expectation → String
  | exactly tag => "Exactly(" ++ tag.name ++ ")"
  | range low high => "Range(" ++ low.name ++ ", " ++ high.name ++ ")"
  | oneOf tags => "OneOf([" ++ ", ".intercalate (tags.map Tag.name) ++ "])"

end Expectation

/-- A field that holds the number of a slot. -/
structure Reference where
  index : UInt16
  expectation : Expectation
  /-- The field may hold 0. -/
  optional : Bool
  deriving DecidableEq

namespace Reference

/-- A reference to a constant of one kind. -/
def required (tag : Tag) (index : UInt16) : Reference :=
  ⟨index, .exactly tag, false⟩

/-- A reference to a constant of one kind, or to none. -/
def orAbsent (tag : Tag) (index : UInt16) : Reference :=
  ⟨index, .exactly tag, true⟩

end Reference

end JvmClass
