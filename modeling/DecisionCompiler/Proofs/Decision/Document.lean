import DecisionCompiler.Decision.Document
import DecisionCompiler.Proofs.Json.Decoding

/-!
Decisions that are written and read again.

A decision whose declared types are canonical is decoded from its document (`decoder_toJson`). The
document holds no numbers and is nowhere nested deeper than a link in a field in a form, so it is
readable in every style; whatever the strings in the decision, its text in a lawful style is decoded
to the decision (`decodeText_toJson`).

Canonical types are also necessary, because nothing else is ever decoded (`canonical_of_decoder`).
-/

namespace DecisionCompiler

open Json Json.Draft Json.Decoder

/-- No declared type keeps a known name as another one. -/
structure Decision.Canonical (decision : Decision) : Prop where
  inputs : ∀ field ∈ decision.inputs, field.type.Canonical
  outputs : ∀ field ∈ decision.outputs, field.type.Canonical

/-! ### Decoding the parts -/

theorem ChainLink.decoder_toJson (link : ChainLink) :
    ChainLink.decoder (ofJson link.toJson) = .ok link := by
  simp [ChainLink.decoder, ChainLink.toJson, ofJson, ofMembers, record, members,
    Progress.ofMembers, Progress.take, Field.mandatory, Json.Decoder.string, Problem.raise]

theorem FieldInfo.decoder_toMembers {field : FieldInfo} (canonical : field.type.Canonical) :
    FieldInfo.decoder (.object (ofMembers field.toMembers) none) = .ok field := by
  rw [ValueType.Canonical] at canonical
  simp [FieldInfo.decoder, FieldInfo.toMembers, ValueType.toJson, ValueType.decoder, ofJson,
    ofMembers, record, members, Progress.ofMembers, Progress.take, Field.mandatory,
    Json.Decoder.string, Problem.raise, canonical]

theorem InputField.decoder_toJson {field : InputField} (canonical : field.type.Canonical) :
    InputField.decoder (ofJson field.toJson) = .ok field := by
  obtain ⟨info, link⟩ := field
  have described := FieldInfo.decoder_toMembers canonical
  have foreign : ∀ member ∈ info.toMembers, member.1 ∉ ["chain_link"] := by
    simp [FieldInfo.toMembers]
  rw [InputField.decoder, InputField.toJson, interleaved_ofJson foreign]
  cases link with
  | none => simp [Field.optional, ofMembers, described]
  | some link =>
    have linked : (optional ChainLink.decoder) (ofJson link.toJson) = .ok (some link) := by
      have decoded := ChainLink.decoder_toJson link
      rw [ChainLink.toJson, ofJson] at decoded ⊢
      simp [Json.Decoder.optional, decoded]
    simp [Field.optional, ofMembers, Progress.take, linked, described]

theorem OutputField.decoder_toJson {field : OutputField} (canonical : field.type.Canonical) :
    OutputField.decoder (ofJson field.toJson) = .ok field := by
  obtain ⟨info, rule⟩ := field
  have described := FieldInfo.decoder_toMembers canonical
  have foreign : ∀ member ∈ info.toMembers, member.1 ∉ ["rule"] := by
    simp [FieldInfo.toMembers]
  rw [OutputField.decoder, OutputField.toJson, interleaved_ofJson foreign]
  simp [Field.mandatory, ofMembers, Progress.take, ofJson, Json.Decoder.string, described]

theorem Decision.decoder_toJson {decision : Decision} (canonical : decision.Canonical) :
    Decision.decoder (ofJson decision.toJson) = .ok decision := by
  have inputs := list_ofJson fun field mem =>
    InputField.decoder_toJson (canonical.inputs field mem)
  have outputs := list_ofJson fun field mem =>
    OutputField.decoder_toJson (canonical.outputs field mem)
  rw [Decision.decoder, Decision.toJson, ofJson]
  simp [record, members, Progress.ofMembers, Progress.take, Field.mandatory, ofMembers, inputs,
    outputs, Problem.raise]
  rfl

/-! ### Types that are read -/

theorem ValueType.canonical_of_decoder {draft : Draft} {type : ValueType}
    (decoded : ValueType.decoder draft = .ok type) : type.Canonical := by
  obtain ⟨name, _, rfl⟩ := Outcome.map_eq_ok_iff.mp decoded
  exact canonical_ofName name

/-- Whatever the description of a field is decoded from, its type is canonical. -/
theorem FieldInfo.canonical_of_decoder {draft : Draft} {info : FieldInfo}
    (decoded : FieldInfo.decoder draft = .ok info) : info.type.Canonical := by
  refine record_keeps (P := fun info : FieldInfo => info.type.Canonical) ?_ ?_ decoded
  · exact ValueType.canonical_ofName ""
  · intro field mem before draft after kept filed
    simp only [List.mem_cons, List.not_mem_nil, or_false] at mem
    rcases mem with rfl | rfl | rfl | rfl | rfl
    all_goals obtain ⟨value, read, rfl⟩ := Field.mandatory_file_eq_ok_iff.mp filed
    case inr.inr.inr.inr => exact ValueType.canonical_of_decoder read
    all_goals exact kept

theorem InputField.canonical_of_decoder {draft : Draft} {field : InputField}
    (decoded : InputField.decoder draft = .ok field) : field.type.Canonical := by
  obtain ⟨_, _, described⟩ := Outcome.bind_eq_ok_iff.mp decoded
  obtain ⟨info, read, ⟨⟩⟩ := Outcome.bind_eq_ok_iff.mp described
  exact info.canonical_of_decoder read

theorem OutputField.canonical_of_decoder {draft : Draft} {field : OutputField}
    (decoded : OutputField.decoder draft = .ok field) : field.type.Canonical := by
  obtain ⟨_, _, described⟩ := Outcome.bind_eq_ok_iff.mp decoded
  obtain ⟨info, read, ⟨⟩⟩ := Outcome.bind_eq_ok_iff.mp described
  exact info.canonical_of_decoder read

/-- Whatever a decision is decoded from, it is canonical. -/
theorem Decision.canonical_of_decoder {draft : Draft} {decision : Decision}
    (decoded : Decision.decoder draft = .ok decision) : decision.Canonical := by
  refine record_keeps (P := Decision.Canonical) ?_ ?_ decoded
  · exact ⟨List.forall_mem_nil _, List.forall_mem_nil _⟩
  · intro field mem before draft after kept filed
    simp only [List.mem_cons, List.not_mem_nil, or_false] at mem
    rcases mem with rfl | rfl | rfl
    all_goals obtain ⟨value, read, rfl⟩ := Field.mandatory_file_eq_ok_iff.mp filed
    · exact ⟨kept.inputs, kept.outputs⟩
    · refine ⟨fun input mem => ?_, kept.outputs⟩
      obtain ⟨_, readInput⟩ := exists_of_list_eq_ok read mem
      exact InputField.canonical_of_decoder readInput
    · refine ⟨kept.inputs, fun output mem => ?_⟩
      obtain ⟨_, readOutput⟩ := exists_of_list_eq_ok read mem
      exact OutputField.canonical_of_decoder readOutput

/-! ### Reading the text -/

section Readable

variable {style : Style} {depth : Nat}

theorem ChainLink.readable_toJson (link : ChainLink) : Readable style (depth + 1) link.toJson := by
  refine .object fun member mem => ?_
  obtain rfl | rfl | rfl := by simpa using mem
  all_goals exact .string _

theorem FieldInfo.readable_toMembers {field : FieldInfo} {member : String × Json}
    (mem : member ∈ field.toMembers) : Readable style depth member.2 := by
  obtain rfl | rfl | rfl | rfl | rfl := by simpa [FieldInfo.toMembers] using mem
  all_goals exact .string _

theorem InputField.readable_toJson (field : InputField) :
    Readable style (depth + 2) field.toJson := by
  refine .object fun member mem => ?_
  rcases List.mem_append.mp mem with info | linked
  · exact FieldInfo.readable_toMembers info
  · obtain ⟨link, _, rfl⟩ :
        ∃ link, field.link = some link ∧ ("chain_link", link.toJson) = member := by
      simpa using linked
    exact link.readable_toJson

theorem OutputField.readable_toJson (field : OutputField) :
    Readable style (depth + 2) field.toJson := by
  refine .object fun member mem => ?_
  rcases List.mem_append.mp mem with info | rule
  · exact FieldInfo.readable_toMembers info
  · obtain rfl := List.mem_singleton.mp rule
    exact .string _

theorem Decision.readable_toJson (decision : Decision) :
    Readable style (depth + 4) decision.toJson := by
  refine .object fun member mem => ?_
  obtain rfl | rfl | rfl := by simpa using mem
  · exact .string _
  · refine .array fun item mem => ?_
    obtain ⟨field, _, rfl⟩ := List.mem_map.mp mem
    exact field.readable_toJson
  · refine .array fun item mem => ?_
    obtain ⟨field, _, rfl⟩ := List.mem_map.mp mem
    exact field.readable_toJson

end Readable

/-- **A decision is decoded from its text.** -/
theorem Decision.decodeText_toJson {style : Style} {decision : Decision} (lawful : style.Lawful)
    (canonical : decision.Canonical) :
    decodeText Decision.decoder (String.ofList (decision.toJson.print style 0)) = .ok decision :=
  decodeText_print lawful decision.readable_toJson (Decision.decoder_toJson canonical)

/-- **Decisions are read as they are written.** In both layouts, the text of a decision is decoded
to the decision exactly if its declared types are canonical. -/
theorem Decision.decodeText_iff_canonical (decision : Decision) :
    (decodeText Decision.decoder decision.toJson.compact = .ok decision ↔ decision.Canonical) ∧
      (decodeText Decision.decoder decision.toJson.pretty = .ok decision ↔
        decision.Canonical) := by
  have canonical {text : String} (read : decodeText Decision.decoder text = .ok decision) :
      decision.Canonical := by
    obtain ⟨_, decoded⟩ := exists_of_decodeText_eq_ok read
    exact canonical_of_decoder decoded
  exact ⟨⟨canonical, decodeText_toJson Style.compact_lawful⟩,
    ⟨canonical, decodeText_toJson Style.pretty_lawful⟩⟩

/-- Quotes, control characters and characters beyond ASCII, a link and a field without one. -/
theorem Decision.decodeText_quoted_linked :
    let decision : Decision :=
      ⟨"\"née\"\u0000", [⟨⟨"a\\b", "", "\n\t", "€", .other "Date"⟩, some ⟨"d", "s", ""⟩⟩,
        ⟨{}, none⟩], []⟩
    decodeText Decision.decoder decision.toJson.compact = .ok decision ∧
      decodeText Decision.decoder decision.toJson.pretty = .ok decision := by
  intro decision
  have canonical : decision.Canonical := by
    constructor <;> decide
  obtain ⟨compact, pretty⟩ := decodeText_iff_canonical decision
  exact ⟨compact.mpr canonical, pretty.mpr canonical⟩

end DecisionCompiler
