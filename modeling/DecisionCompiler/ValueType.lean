import DecisionCompiler.Json.Decoder

/-!
Declared types of form fields.

Three names are known; every other name is kept as it is, so that a decision with types of its own
passes through unchanged. `ValueType.ofName` never keeps a known name as another one, which is what
`Canonical` says.
-/

namespace DecisionCompiler

/-- The declared type of a field. -/
inductive ValueType where
  | number
  | bool
  | string
  | other (name : String)
deriving DecidableEq

namespace ValueType

/-- A field that declares no type has the empty name as its type. -/
instance : Inhabited ValueType := ⟨other ""⟩

/-- The type of a name. -/
def ofName : String → ValueType
  | "Number" => number
  | "Bool" => bool
  | "String" => string
  | name => other name

/-- The name of a type. -/
def name : ValueType → String
  | number => "Number"
  | bool => "Bool"
  | string => "String"
  | other name => name

/-- The type does not keep a known name as another one. -/
def Canonical (type : ValueType) : Prop :=
  ofName type.name = type

instance (type : ValueType) : Decidable type.Canonical :=
  inferInstanceAs (Decidable (_ = _))

theorem name_ofName (name : String) : (ofName name).name = name := by
  unfold ofName
  split <;> rfl

theorem canonical_ofName (name : String) : (ofName name).Canonical := by
  rw [Canonical, name_ofName]

/-- A type stands in a document as its name. -/
def toJson (type : ValueType) : Json :=
  .string type.name

/-- Reads the name of a type. -/
def decoder : Json.Decoder ValueType := fun draft =>
  (Json.Decoder.string draft).map ofName

end ValueType

end DecisionCompiler
