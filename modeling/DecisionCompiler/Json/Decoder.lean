import DecisionCompiler.Json.Draft

/-!
Decoding documents into records.

A decoder walks a draft and reports the first problem it meets. Records are decoded from an object,
whose members may stand in any order, or from an array of their fields in order; members that a
record does not know are passed over, and a member that it knows may stand only once.

What a problem counts as depends on where the document came from. In a text, the elements that an
array has beyond the fields of its record are found where the text should close the array, so they
count as malformed text; in a document that is there as a whole they are a mismatch like any other.
-/

namespace DecisionCompiler.Json

/-- Why a draft cannot be decoded. -/
inductive Problem where
  /-- A value of the wrong shape, a field that is missing or repeated. -/
  | mismatch
  /-- Something stands where the value is already complete. -/
  | excess
  /-- The text cannot be read on. -/
  | unreadable (fault : Fault)
deriving DecidableEq

/-- The problem of members that break off. -/
def Break.problem (gap : Break) : Problem :=
  .unreadable gap.fault

/-- How the refusal of a document is reported. -/
inductive Rejection where
  | mismatch
  | malformed
  | truncated
deriving DecidableEq

/-- How a reader words its refusal of a text. -/
abbrev Wording := String → Rejection → String

/-- A fault of the text as a refusal. -/
def Fault.toRejection : Fault → Rejection
  | .truncated => .truncated
  | .malformed => .malformed

/-- A problem of a document read from a text. -/
def Problem.inText : Problem → Rejection
  | .mismatch => .mismatch
  | .excess => .malformed
  | .unreadable fault => fault.toRejection

/-- A problem of a document that is there as a whole. -/
def Problem.inDocument : Problem → Rejection
  | .unreadable fault => fault.toRejection
  | _ => .mismatch

/-- A decoder of values of a type. -/
abbrev Decoder (α : Type) := Draft → Except Problem α

/-- Fails with the problem, if there is one. -/
def Problem.raise : Option Problem → Except Problem Unit
  | none => .ok ()
  | some problem => .error problem

namespace Decoder

/-- Reports a value that is not of the expected shape. -/
def refuse {α : Type} : Decoder α
  | .stuck _ fault => .error (.unreadable fault)
  | _ => .error .mismatch

/-- A string. -/
def string : Decoder String
  | .string s => .ok s
  | draft => refuse draft

/-- A truth value. -/
def bool : Decoder Bool
  | .bool b => .ok b
  | draft => refuse draft

/-- An integer from zero up to, but not including, a bound. -/
def natBelow (bound : Nat) : Decoder Nat
  | .number (.integer n) => if 0 ≤ n ∧ n < bound then .ok n.toNat else .error .mismatch
  | draft => refuse draft

/-- Null, or a value. -/
def optional {α : Type} (decode : Decoder α) : Decoder (Option α)
  | .null => .ok none
  | draft => (decode draft).map some

/-- An array of values. -/
def list {α : Type} (decode : Decoder α) : Decoder (List α)
  | .array items fault => do
    let values ← items.mapM decode
    Problem.raise (fault.map .unreadable)
    return values
  | draft => refuse draft

mutual

/-- Any document, read in full. -/
def json : Decoder Json
  | .null => .ok .null
  | .bool b => .ok (.bool b)
  | .number n => .ok (.number n)
  | .string s => .ok (.string s)
  | .array items fault => do
    let items ← jsonItems items
    Problem.raise (fault.map .unreadable)
    return .array items
  | .object members gap => do
    let members ← jsonMembers members
    Problem.raise (gap.map Break.problem)
    return .object members
  | .stuck _ fault => .error (.unreadable fault)

/-- Items, each read in full. -/
def jsonItems : List Draft → Except Problem (List Json)
  | [] => .ok []
  | item :: items => do
    let item ← json item
    let items ← jsonItems items
    return item :: items

/-- Members, each read in full. -/
def jsonMembers : List (String × Draft) → Except Problem (List (String × Json))
  | [] => .ok []
  | (name, draft) :: members => do
    let json ← json draft
    let members ← jsonMembers members
    return (name, json) :: members

end

/-! ### Records -/

/-- The members of a record with the given fields, and the problem behind the last one, if any. The
elements of an array belong to the fields in order. -/
def members (fields : List String) : Decoder (List (String × Draft) × Option Problem)
  | .object members gap => .ok (members, gap.map Break.problem)
  | .array items fault =>
    .ok (fields.zip items,
      if fields.length < items.length then some .excess else fault.map .unreadable)
  | draft => refuse draft

/-- A field of a record that is built step by step: its name, whether it has to be there, and how
its value changes the record. -/
structure Field (σ : Type) where
  name : String
  required : Bool
  file : σ → Decoder σ

/-- A field that may be missing. -/
def Field.optional {σ α : Type} (name : String) (decode : Decoder α) (set : σ → α → σ) : Field σ :=
  ⟨name, false, fun record draft => (decode draft).map (set record)⟩

/-- A field that has to be there. -/
def Field.mandatory {σ α : Type} (name : String) (decode : Decoder α) (set : σ → α → σ) : Field σ :=
  ⟨name, true, fun record draft => (decode draft).map (set record)⟩

/-- A record on the way: what it is so far, which of its fields were met, and the members met that
are no fields of it (the last one first). -/
structure Progress (σ : Type) where
  record : σ
  met : List String
  others : List (String × Draft)

/-- Takes one member. A field may be met only once; `other` checks a member that is no field. -/
def Progress.take {σ : Type} (fields : List (Field σ)) (other : Decoder Unit)
    (progress : Progress σ) (member : String × Draft) : Except Problem (Progress σ) :=
  match fields.find? fun field => field.name = member.1 with
  | some field =>
    if member.1 ∈ progress.met then .error .mismatch
    else do
      let record ← field.file progress.record member.2
      return ⟨record, member.1 :: progress.met, progress.others⟩
  | none => do
    other member.2
    return ⟨progress.record, progress.met, member :: progress.others⟩

/-- Takes all members, meets the problem behind them, and asks for the fields that have to be
there. -/
def Progress.ofMembers {σ : Type} (fields : List (Field σ)) (other : Decoder Unit) (blank : σ)
    (members : List (String × Draft)) (behind : Option Problem) : Except Problem (Progress σ) := do
  let progress ← members.foldlM (Progress.take fields other) ⟨blank, [], []⟩
  Problem.raise behind
  if fields.all fun field => !field.required || field.name ∈ progress.met then return progress
  else throw .mismatch

/-- A record with the given fields, starting from one in which they have their defaults. -/
def record {σ : Type} (fields : List (Field σ)) (blank : σ) : Decoder σ := fun draft => do
  let (members, behind) ← members (fields.map Field.name) draft
  let progress ← Progress.ofMembers fields (fun _ => .ok ()) blank members behind
  return progress.record

/-- A record among whose members are those of another record. The members that are not its own are
read in full and given back in order, for the other record to be decoded from them; such a record
has no form as an array. -/
def interleaved {σ : Type} (fields : List (Field σ)) (blank : σ) : Decoder (σ × Draft)
  | .object members gap => do
    let progress ← Progress.ofMembers fields (fun draft => (json draft).map fun _ => ()) blank
      members (gap.map Break.problem)
    return (progress.record, .object progress.others.reverse none)
  | draft => refuse draft

end Decoder

/-- Decodes a document that is there as a whole. -/
def decode {α : Type} (decoder : Decoder α) (json : Json) : Except Rejection α :=
  (decoder (.ofJson json)).mapError Problem.inDocument

/-- Decodes the document that a text begins with; what stands behind it is not looked at. -/
def decodeLeading {α : Type} (decoder : Decoder α) (text : String) : Except Rejection α :=
  (decoder (Draft.ofText text).draft).mapError Problem.inText

/-- Decodes a text that holds one document and nothing else but blanks. -/
def decodeText {α : Type} (decoder : Decoder α) (text : String) : Except Rejection α :=
  let reading := Draft.ofText text
  match decoder reading.draft with
  | .error problem => .error problem.inText
  | .ok value =>
    match reading.rest.map skipGap with
    | some [] => .ok value
    | _ => .error .malformed

/-- The document of a text, read in full. -/
def parse (text : String) : Except Rejection Json :=
  decodeText Decoder.json text

end DecisionCompiler.Json
