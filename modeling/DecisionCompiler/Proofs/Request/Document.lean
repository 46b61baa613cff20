import DecisionCompiler.Request.Document
import DecisionCompiler.Proofs.Json.Numerals
import DecisionCompiler.Proofs.Json.Records
import DecisionCompiler.Proofs.Value

/-!
Requests that are written by anybody and read.

The document of a request may be rearranged in three ways without saying another thing: the members
of an object may stand in another order, a field that has its default may be left out, and members
that no record knows may be added. The written forms of a request (`Batch.Written` and the like) are
what its document can be made into in these ways, at every depth; payloads have no defaults and no
unknown members, so only the order of their entries is free. The document itself is one of the forms
(`Batch.written_toJson`).

A regular request, one that has a document and canonical types, is decoded from each of its forms
(`Batch.decoder_of_written`). As long as it is not nested too deep, a form that is printed is read
from its text, and so is what a request is written as (`Batch.decode_written`).
-/

namespace DecisionCompiler

open Json Json.Draft Json.Decoder

/-! ### Written forms -/

/-- The fields of a rule. -/
def RuleRequest.slots (rule : RuleRequest) : List Slot :=
  [.text "type" rule.kind,
   ⟨"args", rule.args = [], IsList (fun arg draft => draft = .string arg) rule.args⟩,
   ⟨"rule", rule.payload = .null, rule.payload.Written⟩]

/-- The draft is a written form of the rule. -/
def RuleRequest.Written (rule : RuleRequest) : Draft → Prop :=
  IsRecord rule.slots

/-- The fields of a field request. -/
def FieldRequest.slots (field : FieldRequest) : List Slot :=
  [.text "key" field.key, .text "title" field.title, .text "description" field.description,
   .text "unit" field.unit, .text "type" field.type.name, .text "value" field.source,
   ⟨"rule", field.rule = {}, field.rule.Written⟩]

/-- The draft is a written form of the field. -/
def FieldRequest.Written (field : FieldRequest) : Draft → Prop :=
  IsRecord field.slots

/-- The fields of a decision. -/
def DecisionRequest.slots (decision : DecisionRequest) : List Slot :=
  [.text "name" decision.name,
   ⟨"input_form", decision.inputs = [], IsList FieldRequest.Written decision.inputs⟩,
   ⟨"output_form", decision.outputs = [], IsList FieldRequest.Written decision.outputs⟩]

/-- The draft is a written form of the decision. -/
def DecisionRequest.Written (decision : DecisionRequest) : Draft → Prop :=
  IsRecord decision.slots

/-- The field of a batch. -/
def Batch.slots (batch : Batch) : List Slot :=
  [⟨"decisions", batch.decisions = [], IsList DecisionRequest.Written batch.decisions⟩]

/-- The draft is a written form of the batch. -/
def Batch.Written (batch : Batch) : Draft → Prop :=
  IsRecord batch.slots

/-! ### The form in which requests are written -/

theorem RuleRequest.written_toJson (rule : RuleRequest) : rule.Written (ofJson rule.toJson) := by
  have args : IsList (fun arg draft => draft = .string arg) rule.args
      (ofJson (.array (rule.args.map .string))) := isList_ofJson fun _ _ => rfl
  have payload := Value.written_toJson rule.payload
  exact (Stated.keep rfl (.keep args (.keep payload .nil))).isRecord

theorem FieldRequest.written_toJson (field : FieldRequest) :
    field.Written (ofJson field.toJson) := by
  have rule := field.rule.written_toJson
  exact (Stated.keep rfl (.keep rfl (.keep rfl (.keep rfl (.keep rfl (.keep rfl
    (.keep rule .nil))))))).isRecord

theorem DecisionRequest.written_toJson (decision : DecisionRequest) :
    decision.Written (ofJson decision.toJson) := by
  have inputs : IsList FieldRequest.Written decision.inputs
      (ofJson (.array (decision.inputs.map FieldRequest.toJson))) :=
    isList_ofJson fun field _ => field.written_toJson
  have outputs : IsList FieldRequest.Written decision.outputs
      (ofJson (.array (decision.outputs.map FieldRequest.toJson))) :=
    isList_ofJson fun field _ => field.written_toJson
  exact (Stated.keep rfl (.keep inputs (.keep outputs .nil))).isRecord

/-- The document of a batch is one of its written forms. -/
theorem Batch.written_toJson (batch : Batch) : batch.Written (ofJson batch.toJson) := by
  have decisions : IsList DecisionRequest.Written batch.decisions
      (ofJson (.array (batch.decisions.map DecisionRequest.toJson))) :=
    isList_ofJson fun decision _ => decision.written_toJson
  exact (Stated.keep decisions .nil).isRecord

/-! ### Decoding -/

/-- The rule as far as it is known when the fields of the given names were met. -/
def RuleRequest.partly (rule : RuleRequest) (met : List String) : RuleRequest where
  kind := whenMet met "type" rule.kind ""
  args := whenMet met "args" rule.args []
  payload := whenMet met "rule" rule.payload .null

theorem RuleRequest.decoder_of_written {rule : RuleRequest} (regular : rule.payload.Regular)
    {draft : Draft} (written : rule.Written draft) : RuleRequest.decoder draft = .ok rule := by
  have args : ∀ draft, IsList (fun arg draft => draft = .string arg) rule.args draft →
      list Json.Decoder.string draft = .ok rule.args := fun draft isList =>
    list_of_isList isList fun arg _ => string_of_eq
  have payload : ∀ draft, rule.payload.Written draft →
      Value.decoder draft = .ok rule.payload := fun draft written =>
    Value.decoder_of_written written regular
  refine record_of_isRecord rule.partly ?_ (by simp [slots]) ?_ written
  · refine .cons ?_ (.cons ?_ (.cons ?_ .nil))
    · exact files_optional string_of_eq fun met => by simp [partly, whenMet_cons_of_ne]
    · exact files_optional args fun met => by simp [partly, whenMet_cons_of_ne]
    · exact files_optional payload fun met => by simp [partly, whenMet_cons_of_ne]
  · intro met known
    simp only [slots, List.forall_mem_cons, List.not_mem_nil, false_implies, implies_true, and_true,
      Slot.text_name, Slot.text_blank] at known
    obtain ⟨kind, args, payload⟩ := known
    simp only [partly, whenMet_eq kind, whenMet_eq args, whenMet_eq payload]

/-- The field as far as it is known when the fields of the given names were met. -/
def FieldRequest.partly (field : FieldRequest) (met : List String) : FieldRequest where
  key := whenMet met "key" field.key ""
  title := whenMet met "title" field.title ""
  description := whenMet met "description" field.description ""
  unit := whenMet met "unit" field.unit ""
  type := whenMet met "type" field.type default
  source := whenMet met "value" field.source ""
  rule := whenMet met "rule" field.rule {}

/-- The declared type is canonical, and the payload of the rule is regular. -/
structure FieldRequest.Regular (field : FieldRequest) : Prop where
  type : field.type.Canonical
  payload : field.rule.payload.Regular

theorem FieldRequest.decoder_of_written {field : FieldRequest} (regular : field.Regular)
    {draft : Draft} (written : field.Written draft) :
    FieldRequest.decoder draft = .ok field := by
  have type : ∀ draft, draft = .string field.type.name →
      ValueType.decoder draft = .ok field.type := by
    rintro _ rfl
    exact congrArg Except.ok regular.type
  have rule : ∀ draft, field.rule.Written draft →
      RuleRequest.decoder draft = .ok field.rule := fun draft written =>
    RuleRequest.decoder_of_written regular.payload written
  refine record_of_isRecord field.partly ?_ (by simp [slots]) ?_ written
  · refine .cons ?_ (.cons ?_ (.cons ?_ (.cons ?_ (.cons ?_ (.cons ?_ (.cons ?_ .nil))))))
    · exact files_optional string_of_eq fun met => by simp [partly, whenMet_cons_of_ne]
    · exact files_optional string_of_eq fun met => by simp [partly, whenMet_cons_of_ne]
    · exact files_optional string_of_eq fun met => by simp [partly, whenMet_cons_of_ne]
    · exact files_optional string_of_eq fun met => by simp [partly, whenMet_cons_of_ne]
    · exact files_optional type fun met => by simp [partly, whenMet_cons_of_ne]
    · exact files_optional string_of_eq fun met => by simp [partly, whenMet_cons_of_ne]
    · exact files_optional rule fun met => by simp [partly, whenMet_cons_of_ne]
  · intro met known
    simp only [slots, List.forall_mem_cons, List.not_mem_nil, false_implies, implies_true, and_true,
      Slot.text_name, Slot.text_blank] at known
    obtain ⟨key, title, description, unit, typeName, source, rule⟩ := known
    have type : "type" ∈ met ∨ field.type = default :=
      typeName.imp_right fun none => regular.type.symm.trans (congrArg ValueType.ofName none)
    simp only [partly, whenMet_eq key, whenMet_eq title, whenMet_eq description, whenMet_eq unit,
      whenMet_eq type, whenMet_eq source, whenMet_eq rule]

/-- The decision as far as it is known when the fields of the given names were met. -/
def DecisionRequest.partly (decision : DecisionRequest) (met : List String) : DecisionRequest where
  name := whenMet met "name" decision.name ""
  inputs := whenMet met "input_form" decision.inputs []
  outputs := whenMet met "output_form" decision.outputs []

/-- All fields are regular. -/
structure DecisionRequest.Regular (decision : DecisionRequest) : Prop where
  inputs : ∀ field ∈ decision.inputs, field.Regular
  outputs : ∀ field ∈ decision.outputs, field.Regular

theorem DecisionRequest.decoder_of_written {decision : DecisionRequest}
    (regular : decision.Regular) {draft : Draft} (written : decision.Written draft) :
    DecisionRequest.decoder draft = .ok decision := by
  have forms : ∀ fields : List FieldRequest, (∀ field ∈ fields, field.Regular) →
      ∀ draft, IsList FieldRequest.Written fields draft →
        list FieldRequest.decoder draft = .ok fields := fun fields regular draft isList =>
    list_of_isList isList fun field mem _ => FieldRequest.decoder_of_written (regular field mem)
  have inputs := forms decision.inputs regular.inputs
  have outputs := forms decision.outputs regular.outputs
  refine record_of_isRecord decision.partly ?_ (by simp [slots]) ?_ written
  · refine .cons ?_ (.cons ?_ (.cons ?_ .nil))
    · exact files_optional string_of_eq fun met => by simp [partly, whenMet_cons_of_ne]
    · exact files_optional inputs fun met => by simp [partly, whenMet_cons_of_ne]
    · exact files_optional outputs fun met => by simp [partly, whenMet_cons_of_ne]
  · intro met known
    simp only [slots, List.forall_mem_cons, List.not_mem_nil, false_implies, implies_true, and_true,
      Slot.text_name, Slot.text_blank] at known
    obtain ⟨name, inputs, outputs⟩ := known
    simp only [partly, whenMet_eq name, whenMet_eq inputs, whenMet_eq outputs]

/-- All decisions are regular. -/
def Batch.Regular (batch : Batch) : Prop :=
  ∀ decision ∈ batch.decisions, decision.Regular

/-- The batch as far as it is known when the fields of the given names were met. -/
def Batch.partly (batch : Batch) (met : List String) : Batch where
  decisions := whenMet met "decisions" batch.decisions []

theorem Batch.decoder_of_written {batch : Batch} (regular : batch.Regular) {draft : Draft}
    (written : batch.Written draft) : Batch.decoder draft = .ok batch := by
  have decisions : ∀ draft, IsList DecisionRequest.Written batch.decisions draft →
      list DecisionRequest.decoder draft = .ok batch.decisions := fun draft isList =>
    list_of_isList isList fun decision mem _ =>
      DecisionRequest.decoder_of_written (regular decision mem)
  refine record_of_isRecord batch.partly ?_ (by simp [slots]) ?_ written
  · refine .cons ?_ .nil
    exact files_optional decisions fun met => by simp [partly]
  · intro met known
    simp only [slots, List.forall_mem_cons, List.not_mem_nil, false_implies, implies_true,
      and_true] at known
    simp only [partly, whenMet_eq known]

/-! ### Texts -/

/-- **A batch is read from each of its written forms.** A draft of such a form is decoded to the
batch, and so is every text that yields the draft and ends there. A document of such a form that is
not nested too deep is printed to a text of the batch in every lawful style that shows numbers as
documents do. The document of the batch is such a form, so that reading undoes writing. -/
theorem Batch.decode_written {batch : Batch} (regular : batch.Regular) :
    (∀ draft, batch.Written draft →
      Batch.decoder draft = .ok batch ∧
        ∀ text rest, Draft.ofText text = ⟨draft, some rest⟩ → skipGap rest = [] →
          decodeText Batch.decoder text = .ok batch) ∧
    (∀ document, batch.Written (ofJson document) →
      decode Batch.decoder document = .ok batch ∧
        (Bounded maxDepth document → ∀ style : Style, style.Lawful →
          style.real = Number.Finite.document →
            decodeText Batch.decoder (String.ofList (document.print style 0)) = .ok batch)) ∧
    batch.Written (ofJson batch.toJson) ∧
    (Bounded maxDepth batch.toJson →
      decodeText Batch.decoder batch.toJson.compact = .ok batch ∧
        decodeText Batch.decoder batch.toJson.pretty = .ok batch) := by
  have decoded {draft : Draft} (written : batch.Written draft) := decoder_of_written regular written
  have printed {document : Json} (written : batch.Written (ofJson document))
      (bounded : Bounded maxDepth document) {style : Style} (lawful : style.Lawful)
      (real : style.real = Number.Finite.document) :
      decodeText Batch.decoder (String.ofList (document.print style 0)) = .ok batch :=
    decodeText_print lawful (bounded.readable real) (decoded written)
  refine ⟨fun draft written => ⟨decoded written, ?_⟩, fun document written => ⟨?_, ?_⟩,
    batch.written_toJson, fun bounded => ⟨?_, ?_⟩⟩
  · intro text rest read ended
    simp [decodeText, read, decoded written, ended]
  · rw [decode, decoded written]
    rfl
  · intro bounded style lawful real
    exact printed written bounded lawful real
  · exact printed batch.written_toJson bounded Style.compact_lawful rfl
  · exact printed batch.written_toJson bounded Style.pretty_lawful rfl

/-- Members in another order at every depth, defaults left out, others that no record knows. -/
theorem Batch.decode_written_rearranged :
    let payload : Value := .object [("false", .number (.finite (.zero true))), ("true", .null)]
    let output : FieldRequest := ⟨"k", "", "", "", default, "", ⟨"BoolMap", [], payload⟩⟩
    let batch : Batch := ⟨[⟨"", [], [output]⟩]⟩
    let entries : Json := .object [("true", .null), ("false", .number (.real (.zero true)))]
    let rule : Json :=
      .object [("rule", entries), ("type", .string "BoolMap"), ("note", .array [.null])]
    let decision : Json :=
      .object [("output_form", .array [.object [("rule", rule), ("key", .string "k")]])]
    let document : Json :=
      .object [("version", .number (.integer 2)), ("decisions", .array [decision])]
    decodeText Batch.decoder document.compact = .ok batch := by
  intro payload output batch entries rule decision document
  have regular : batch.Regular := by
    have ascending : Entries.Ascending
        [("false", Value.number (.finite (.zero true))), ("true", .null)] :=
      List.pairwise_pair.mpr (by decide)
    have payloadRegular : payload.Regular :=
      .object ascending (List.forall_mem_cons.mpr ⟨.number _, List.forall_mem_singleton.mpr .null⟩)
    refine List.forall_mem_singleton.mpr ⟨List.forall_mem_nil _, ?_⟩
    exact List.forall_mem_singleton.mpr ⟨rfl, payloadRegular⟩
  have payloadWritten : payload.Written (ofJson entries) := by
    have order : List.Perm
        (ofMembers [("true", .null), ("false", .number (.real (.zero true)))])
        (ofMembers [("false", .number (.real (.zero true))), ("true", .null)]) := .swap _ _ _
    refine .object ?_ ?_ order
    · rfl
    · exact List.forall_mem_cons.mpr ⟨.number _, List.forall_mem_singleton.mpr .null⟩
  have ruleWritten : output.rule.Written (ofJson rule) := by
    refine ⟨_, _, ofMembers [("note", .array [.null])], rfl,
      .keep rfl (.drop rfl (.keep payloadWritten .nil)), ?_, .swap _ _ _⟩
    simp [ofMembers, RuleRequest.slots]
  have outputWritten :
      output.Written (ofJson (.object [("rule", rule), ("key", .string "k")])) := by
    exact ⟨_, _, [], rfl, .keep rfl (.drop rfl (.drop rfl (.drop rfl (.drop rfl (.drop rfl
      (.keep ruleWritten .nil)))))), List.forall_mem_nil _, .swap _ _ _⟩
  have outputs : IsList FieldRequest.Written [output]
      (ofJson (.array [.object [("rule", rule), ("key", .string "k")]])) :=
    ⟨_, rfl, .cons outputWritten .nil⟩
  have decisions : IsList DecisionRequest.Written batch.decisions (ofJson (.array [decision])) :=
    ⟨_, rfl, .cons (Stated.drop rfl (.drop rfl (.keep outputs .nil))).isRecord .nil⟩
  have written : batch.Written (ofJson document) := by
    refine ⟨_, _, ofMembers [("version", .number (.integer 2))], rfl, .keep decisions .nil, ?_,
      .swap _ _ _⟩
    simp [ofMembers, Batch.slots]
  have bounded : Bounded maxDepth document := by
    repeat' first
      | exact List.forall_mem_nil _
      | refine List.forall_mem_cons.mpr ⟨?_, ?_⟩
      | constructor
  exact ((decode_written regular).2.1 document written).2 bounded .compact Style.compact_lawful rfl

end DecisionCompiler
