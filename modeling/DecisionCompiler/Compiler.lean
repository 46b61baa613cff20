import DecisionCompiler.Rule.Template

/-!
Compiling the rules of output fields.

A compiler is what its options make it: by default the rule of an unknown kind compiles to a fixed
text that no evaluator takes for a template; a strict compiler rejects it.
-/

namespace DecisionCompiler

/-- The compiled rule of an output field. -/
structure Expression where
  text : String
deriving DecidableEq

/-- What the rule of an unknown kind compiles to. -/
def Expression.unsupported : Expression :=
  ⟨"unsupported rule type"⟩

/-- The options of a compiler. -/
structure Compiler where
  rejectUnknownRules : Bool := false
deriving DecidableEq

instance : Inhabited Compiler := ⟨{}⟩

namespace Compiler

/-- Compiles a rule for the output field with the given key and type. -/
def compileSpec (compiler : Compiler) (field : String) (type : ValueType) (spec : RuleSpec) :
    Except CompileError Expression := do
  match spec, compiler.rejectUnknownRules with
  | .unknown kind, true => throw (.unsupportedRule kind)
  | _, _ =>
    match ← Expr.ofSpec type spec with
    | some body => return ⟨String.ofList (Template.mk field body).render⟩
    | none => return .unsupported

/-- Compiles a rule as it is submitted. -/
def compileRule (compiler : Compiler) (field : String) (type : ValueType) (request : RuleRequest) :
    Except CompileError Expression := do
  let spec ← RuleSpec.ofRequest field request
  compiler.compileSpec field type spec

/-- The options as a document states them. -/
def decoder : Json.Decoder Compiler :=
  Json.Decoder.record
    [.optional "reject_unknown_rules" Json.Decoder.bool
      fun compiler rejectUnknownRules => { compiler with rejectUnknownRules }]
    {}

end Compiler

end DecisionCompiler
