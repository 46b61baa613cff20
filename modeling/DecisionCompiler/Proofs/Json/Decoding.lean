import DecisionCompiler.Proofs.Json.Reading
import DecisionCompiler.Proofs.Outcome

/-!
Decoding documents that are there as a whole.

Such a document is decoded in full to itself (`json_ofJson`), so a readable document is parsed from
its text (`parse_print`). An array of documents is decoded item by item (`list_ofJson`), and a
record among whose members another record stands keeps the members of the other one in order
(`interleaved_ofJson`).

Whatever a record is decoded from, it is made of its blank form by filing fields, so that what every
filing keeps is true of each record that is decoded (`record_keeps`).
-/

namespace DecisionCompiler.Json

open Draft Decoder

/-! ### Any document -/

mutual

theorem json_ofJson : ∀ document : Json, json (ofJson document) = .ok document
  | .null | .bool _ | .number _ | .string _ => rfl
  | .array items => by
    rw [ofJson, json, jsonItems_ofItems items]
    rfl
  | .object members => by
    rw [ofJson, json, jsonMembers_ofMembers members]
    rfl

theorem jsonItems_ofItems : ∀ items : List Json, jsonItems (ofItems items) = .ok items
  | [] => rfl
  | item :: items => by
    rw [ofItems, jsonItems, json_ofJson item, jsonItems_ofItems items]
    rfl

theorem jsonMembers_ofMembers :
    ∀ members : List (String × Json), jsonMembers (ofMembers members) = .ok members
  | [] => rfl
  | (name, document) :: members => by
    rw [ofMembers, jsonMembers, json_ofJson document, jsonMembers_ofMembers members]
    rfl

end

/-- **A readable document is parsed from its text.** -/
theorem parse_print {style : Style} {document : Json} (lawful : style.Lawful)
    (readable : Readable style maxDepth document) :
    parse (String.ofList (document.print style 0)) = .ok document :=
  decodeText_print lawful readable (json_ofJson document)

/-! ### Arrays and records -/

theorem list_ofJson {α : Type} {decoder : Decoder α} {toJson : α → Json} {values : List α}
    (decoded : ∀ value ∈ values, decoder (ofJson (toJson value)) = .ok value) :
    list decoder (ofJson (.array (values.map toJson))) = .ok values := by
  have items : (ofItems (values.map toJson)).mapM decoder = .ok values := by
    induction values with
    | nil => rfl
    | cons value values ih =>
      have others := ih fun value mem => decoded value (List.mem_cons_of_mem _ mem)
      rw [List.map_cons, ofItems, List.mapM_cons, decoded value List.mem_cons_self, others]
      rfl
  rw [ofJson, list, items]
  rfl

theorem ofMembers_append (first second : List (String × Json)) :
    ofMembers (first ++ second) = ofMembers first ++ ofMembers second := by
  induction first with
  | nil => rfl
  | cons member first ih => rw [List.cons_append, ofMembers, ih, ofMembers, List.cons_append]

section Interleaved

variable {σ : Type} {fields : List (Decoder.Field σ)} {others : List (String × Json)}

/-- Members of the other record are kept on the way. -/
theorem foldlM_take_others
    (foreign : ∀ member ∈ others, member.1 ∉ fields.map Decoder.Field.name)
    (progress : Progress σ) :
    (ofMembers others).foldlM
        (Progress.take fields fun draft => (json draft).map fun _ => ()) progress =
      .ok ⟨progress.record, progress.met, (ofMembers others).reverse ++ progress.others⟩ := by
  induction others generalizing progress with
  | nil => rfl
  | cons member others ih =>
    have unknown : fields.find? (fun field => field.name = member.1) = none := by
      have := foreign member List.mem_cons_self
      simpa [List.find?_eq_none] using this
    rw [ofMembers, List.foldlM_cons, Progress.take]
    simp only [unknown, json_ofJson, Outcome.map_ok, Outcome.ok_bind, Outcome.pure_eq_ok]
    rw [ih fun member mem => foreign member (List.mem_cons_of_mem _ mem)]
    simp

/-- Only the members behind those of the other record are taken. -/
theorem interleaved_ofJson
    (foreign : ∀ member ∈ others, member.1 ∉ fields.map Decoder.Field.name) (blank : σ)
    (own : List (String × Json)) :
    interleaved fields blank (ofJson (.object (others ++ own))) = (do
      let progress ← (ofMembers own).foldlM
        (Progress.take fields fun draft => (json draft).map fun _ => ())
          ⟨blank, [], (ofMembers others).reverse⟩
      if fields.all fun field => !field.required || field.name ∈ progress.met then
        return (progress.record, .object progress.others.reverse none)
      else throw .mismatch) := by
  rw [ofJson, ofMembers_append, interleaved, Progress.ofMembers, List.foldlM_append,
    foldlM_take_others foreign, Outcome.ok_bind, List.append_nil]
  cases (ofMembers own).foldlM (Progress.take fields fun draft => (json draft).map fun _ => ())
    ⟨blank, [], (ofMembers others).reverse⟩ with
  | error problem => rfl
  | ok progress =>
    simp only [Outcome.ok_bind, Problem.raise, Option.map_none]
    split <;> rfl

end Interleaved

/-! ### What decoding keeps true -/

section Kept

variable {σ α : Type} {P : σ → Prop} {fields : List (Decoder.Field σ)} {other : Decoder Unit}
  {draft : Draft}

theorem Decoder.Field.mandatory_file_eq_ok_iff {name : String} {decode : Decoder α}
    {set : σ → α → σ} {before after : σ} :
    (Field.mandatory name decode set).file before draft = .ok after ↔
      ∃ value, decode draft = .ok value ∧ set before value = after :=
  Outcome.map_eq_ok_iff

/-- The values of an array are values that were decoded. -/
theorem exists_of_list_eq_ok {decoder : Decoder α} {values : List α}
    (decoded : list decoder draft = .ok values) {value : α} (mem : value ∈ values) :
    ∃ item, decoder item = .ok value := by
  unfold list at decoded
  split at decoded
  · obtain ⟨values', items, decoded⟩ := Outcome.bind_eq_ok_iff.mp decoded
    obtain ⟨_, _, ⟨⟩⟩ := Outcome.bind_eq_ok_iff.mp decoded
    have flipped := (Outcome.mapM_eq_ok_iff.mp items).flip
    obtain ⟨item, _, read⟩ := Outcome.exists_of_forall₂ flipped mem
    exact ⟨item, read⟩
  · unfold refuse at decoded
    split at decoded <;> exact nomatch decoded

theorem Decoder.Progress.take_keeps
    (step : ∀ field ∈ fields, ∀ before draft after,
      P before → field.file before draft = .ok after → P after)
    {before after : Progress σ} {member : String × Draft} (kept : P before.record)
    (taken : Progress.take fields other before member = .ok after) : P after.record := by
  unfold Progress.take at taken
  split at taken
  · rename_i field found
    split at taken
    · exact nomatch taken
    · obtain ⟨record, filed, ⟨⟩⟩ := Outcome.bind_eq_ok_iff.mp taken
      exact step field (List.mem_of_find?_eq_some found) _ _ _ kept filed
  · obtain ⟨_, _, ⟨⟩⟩ := Outcome.bind_eq_ok_iff.mp taken
    exact kept

/-- What holds of a blank record and is kept by the filing of every field holds of a record that is
decoded. -/
theorem record_keeps {blank result : σ} (start : P blank)
    (step : ∀ field ∈ fields, ∀ before draft after,
      P before → field.file before draft = .ok after → P after)
    (decoded : record fields blank draft = .ok result) : P result := by
  have run : ∀ (members : List (String × Draft)) (before after : Progress σ), P before.record →
      members.foldlM (Progress.take fields fun _ => .ok ()) before = .ok after →
        P after.record := by
    intro members
    induction members with
    | nil =>
      rintro before _ kept ⟨⟩
      exact kept
    | cons member members ih =>
      intro before after kept taken
      rw [List.foldlM_cons] at taken
      obtain ⟨between, first, others⟩ := Outcome.bind_eq_ok_iff.mp taken
      exact ih between after (Progress.take_keeps step kept first) others
  unfold record at decoded
  obtain ⟨⟨members, behind⟩, _, decoded⟩ := Outcome.bind_eq_ok_iff.mp decoded
  obtain ⟨progress, taken, ⟨⟩⟩ := Outcome.bind_eq_ok_iff.mp decoded
  unfold Progress.ofMembers at taken
  obtain ⟨after, folded, taken⟩ := Outcome.bind_eq_ok_iff.mp taken
  obtain ⟨_, _, taken⟩ := Outcome.bind_eq_ok_iff.mp taken
  split at taken
  · obtain rfl := Except.ok.inj taken
    exact run members ⟨blank, [], []⟩ after start folded
  · exact nomatch taken

/-- What is decoded from a text is decoded from what the text yields. -/
theorem exists_of_decodeText_eq_ok {decoder : Decoder α} {text : String} {value : α}
    (read : decodeText decoder text = .ok value) : ∃ draft, decoder draft = .ok value := by
  unfold decodeText at read
  simp only at read
  split at read
  · exact nomatch read
  · rename_i value' decoded
    split at read
    · obtain rfl := Except.ok.inj read
      exact ⟨_, decoded⟩
    · exact nomatch read

end Kept

end DecisionCompiler.Json
