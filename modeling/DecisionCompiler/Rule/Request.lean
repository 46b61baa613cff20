import DecisionCompiler.Value

/-!
Rules as they are submitted.

A rule names its kind, its operands and a payload; which operands and what payload it needs depends
on the kind. A kind that has no known name is kept, since the compiler can be told to tolerate it.
-/

namespace DecisionCompiler

/-- The kind of a rule. -/
inductive RuleKind where
  | intervalMap
  | boolMap
  | thresholdMap
  | func
  | unknown (name : String)
deriving DecidableEq

/-- The kind of a name. -/
def RuleKind.ofName : String → RuleKind
  | "IntervalMap" => intervalMap
  | "BoolMap" => boolMap
  | "ThresholdMap" => thresholdMap
  | "Func" => func
  | name => unknown name

/-- The name of a kind. -/
def RuleKind.name : RuleKind → String
  | intervalMap => "IntervalMap"
  | boolMap => "BoolMap"
  | thresholdMap => "ThresholdMap"
  | func => "Func"
  | unknown name => name

/-- A rule as it is submitted. -/
structure RuleRequest where
  kind : String := ""
  args : List String := []
  payload : Value := .null

instance : Inhabited RuleRequest := ⟨{}⟩

end DecisionCompiler
