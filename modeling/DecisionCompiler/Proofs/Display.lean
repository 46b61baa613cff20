import DecisionCompiler.Proofs.Json.Decoding
import DecisionCompiler.Proofs.Json.Numerals
import DecisionCompiler.Proofs.Number.Whole
import DecisionCompiler.Proofs.Value
import Mathlib.Tactic.Choose

/-!
Values as they are shown inside templates.

A value that is not a bare string is shown as a document without blanks. `Spelled` says how: strings
and names stand in quotes, escaped so that they are read as they are, and numbers are decimal
digits, without an exponent and, if they are whole, without a fraction, however deep they stand.

A whole number that is shown is read as an integer where it fits 64 bits, so the text is not read as
the document that it was printed from, but as one that is written like it and stands for the same
value (`ShownAs`). Every value that can be read back at all has such a document
(`exists_shownAs`); therefore it is read back as it was, and different values are shown differently
(`display_reads_back`).
-/

namespace DecisionCompiler

namespace Json

/-! ### Containers in the plain style -/

section Containers

variable {level : Nat}

theorem printItems_plain (item : Json) (items : List Json) :
    item.print .plain level ++ printItems .plain level items =
      [','].intercalate ((item :: items).map (print .plain level)) := by
  induction items generalizing item with
  | nil => simp [printItems, List.intercalate]
  | cons next items ih =>
    rw [List.map_cons, List.map_cons, List.intercalate_cons_cons, ← List.map_cons, ← ih next]
    simp [printItems, Style.plain]

theorem print_array (items : List Json) :
    print .plain level (.array items) =
      '[' :: ([','].intercalate (items.map (print .plain (level + 1))) ++ [']']) := by
  cases items with
  | nil => rfl
  | cons item items =>
    rw [← printItems_plain]
    simp [print, Style.plain]

/-- A member in the plain style. -/
def printMember (level : Nat) (member : String × Json) : List Char :=
  quoted member.1 ++ ':' :: member.2.print .plain level

theorem printMembers_plain (member : String × Json) (members : List (String × Json)) :
    printMember level member ++ printMembers .plain level members =
      [','].intercalate ((member :: members).map (printMember level)) := by
  induction members generalizing member with
  | nil => simp [printMembers, List.intercalate]
  | cons next members ih =>
    rw [List.map_cons, List.map_cons, List.intercalate_cons_cons, ← List.map_cons, ← ih next]
    simp [printMembers, printMember, Style.plain]

theorem print_object (members : List (String × Json)) :
    print .plain level (.object members) =
      '\x7b' :: ([','].intercalate (members.map (printMember (level + 1))) ++ ['\x7d']) := by
  rcases members with _ | ⟨member, members⟩
  · rfl
  · rw [← printMembers_plain]
    simp [print, printMember, Style.plain]

end Containers

/-- The text is a string in quotes, escaped so that it is read as the given one. -/
def Quotes (s : String) (text : List Char) : Prop :=
  ∃ body, text = '"' :: (body ++ ['"']) ∧ ∀ rest, readString (body ++ '"' :: rest) = .ok (s, rest)

theorem quotes_quoted (s : String) : Quotes s (quoted s) :=
  ⟨s.toList.flatMap escape, rfl, readString_escaped s⟩

end Json

open Json

/-! ### Spelling -/

/-- The text is the number in decimal digits: it has no exponent, and a fraction only if the number
is not whole. -/
structure Number.Finite.Spelled (x : Number.Finite) (text : List Char) : Prop where
  read : Number.read? text = some (.finite x)
  digits : ∃ whole fraction, text = Number.signText x.negative ++ Number.pointed whole fraction ∧
    whole ≠ [] ∧ Number.Digital (whole ++ fraction)
  unforced : x.Whole → '.' ∉ text

theorem Number.Finite.spelled_plain (x : Number.Finite) : x.Spelled x.plain where
  read := Number.read?_plain x
  digits := by
    obtain ⟨whole, fraction, written, positions, _⟩ := Number.positional_eq_pointed (x.shortest .up)
    refine ⟨whole, fraction, ?_, positions.some, positions.digital⟩
    rw [Number.Finite.plain, written]
  unforced := Number.point_not_mem_plain

namespace Value

variable {depth : Nat}

/-- The text is a document of the value without blanks, with every string and every name in quotes
and every number in digits. -/
inductive Spelled : Value → List Char → Prop where
  | null : Spelled .null ['n', 'u', 'l', 'l']
  | true : Spelled (.bool true) ['t', 'r', 'u', 'e']
  | false : Spelled (.bool false) ['f', 'a', 'l', 's', 'e']
  | number {x : Number.Finite} {text : List Char} (spelled : x.Spelled text) :
      Spelled (.number (.finite x)) text
  | string {s : String} {text : List Char} (quotes : Quotes s text) : Spelled (.string s) text
  | array {items : List Value} {texts : List (List Char)} (length : items.length = texts.length)
      (inside : ∀ pair ∈ items.zip texts, Spelled pair.1 pair.2) :
      Spelled (.array items) ('[' :: ([','].intercalate texts ++ [']']))
  | object {entries : List (String × Value)} {texts : List (List Char × List Char)}
      (length : entries.length = texts.length)
      (names : ∀ pair ∈ entries.zip texts, Quotes pair.1.1 pair.2.1)
      (inside : ∀ pair ∈ entries.zip texts, Spelled pair.1.2 pair.2.2) :
      Spelled (.object entries)
        ('\x7b' :: ([','].intercalate (texts.map fun text => text.1 ++ ':' :: text.2) ++ ['\x7d']))

theorem spelled_print {value : Value} (regular : value.Regular) (level : Nat) :
    Spelled value (value.toJson.print .plain level) := by
  induction regular generalizing level with
  | null => exact .null
  | bool b =>
    cases b with
    | false => exact .false
    | true => exact .true
  | number x => exact .number x.spelled_plain
  | string s => exact .string (quotes_quoted s)
  | @array items _ ih =>
    have inside : List.Forall₂ Spelled items
        ((toItems items).map (print .plain (level + 1))) := by
      rw [toItems_eq_map, List.map_map, List.forall₂_map_right_iff, List.forall₂_same]
      intro item mem
      exact ih item mem (level + 1)
    rw [toJson, print_array]
    exact .array inside.length_eq fun _ mem => List.forall₂_zip inside mem
  | @object entries _ _ ih =>
    have inside : List.Forall₂ (fun entry text => Quotes entry.1 text.1 ∧ Spelled entry.2 text.2)
        entries (entries.map fun entry =>
          (quoted entry.1, entry.2.toJson.print .plain (level + 1))) := by
      rw [List.forall₂_map_right_iff, List.forall₂_same]
      intro entry mem
      exact ⟨quotes_quoted entry.1, ih entry mem (level + 1)⟩
    have spelled := Spelled.object inside.length_eq
      (fun _ mem => (List.forall₂_zip inside mem).1) fun _ mem => (List.forall₂_zip inside mem).2
    rw [List.map_map] at spelled
    rw [toJson, print_object, toMembers_eq_map, List.map_map]
    exact spelled

/-! ### Reading back -/

/-- The document is read where the value is shown: it is written like the document of the value, it
can be read, and it stands for the value. -/
structure ShownAs (depth : Nat) (value : Value) (document : Json) : Prop where
  stands : ofJson document = value
  alike : ∀ level, document.print .plain level = value.toJson.print .plain level
  readable : Readable .plain depth document

theorem shownAs_array {items : List Value} {document : Value → Json}
    (inside : ∀ item ∈ items, ShownAs depth item (document item)) :
    ShownAs (depth + 1) (.array items) (.array (items.map document)) where
  stands := by
    have same : (items.map document).map ofJson = items := by
      rw [List.map_map]
      exact (List.map_congr_left fun item mem => (inside item mem).stands).trans (List.map_id items)
    rw [ofJson, ofItems_eq_map, same]
  alike level := by
    have same : (items.map document).map (print .plain (level + 1)) =
        (items.map toJson).map (print .plain (level + 1)) := by
      rw [List.map_map, List.map_map]
      exact List.map_congr_left fun item mem => (inside item mem).alike (level + 1)
    rw [toJson, print_array, print_array, toItems_eq_map, same]
  readable := by
    refine .array fun _ listed => ?_
    obtain ⟨item, mem, rfl⟩ := List.mem_map.mp listed
    exact (inside item mem).readable

theorem shownAs_object {entries : List (String × Value)} {document : String × Value → Json}
    (ascending : Entries.Ascending entries)
    (inside : ∀ entry ∈ entries, ShownAs depth entry.2 (document entry)) :
    ShownAs (depth + 1) (.object entries)
      (.object (entries.map fun entry => (entry.1, document entry))) where
  stands := by
    have same : (entries.map fun entry => (entry.1, document entry)).map
        (fun member => (member.1, ofJson member.2)) = entries := by
      rw [List.map_map]
      refine (List.map_congr_left fun entry mem => ?_).trans (List.map_id entries)
      exact congrArg (entry.1, ·) (inside entry mem).stands
    rw [ofJson, ofMembers_eq_map, same, Entries.ofList_eq_self ascending]
  alike level := by
    have same : (entries.map fun entry => (entry.1, document entry)).map
        (printMember (level + 1)) =
          (entries.map fun entry => (entry.1, entry.2.toJson)).map (printMember (level + 1)) := by
      rw [List.map_map, List.map_map]
      refine List.map_congr_left fun entry mem => ?_
      exact congrArg (quoted entry.1 ++ ':' :: ·) ((inside entry mem).alike (level + 1))
    rw [toJson, print_object, print_object, toMembers_eq_map, same]
  readable := by
    refine .object fun _ listed => ?_
    obtain ⟨entry, mem, rfl⟩ := List.mem_map.mp listed
    exact (inside entry mem).readable

/-- Whatever can be read back has a document that is read where it is shown. -/
theorem exists_shownAs {value : Value} (regular : value.Regular)
    (nested : Bounded depth value.toJson) : ∃ document, ShownAs depth value document := by
  induction regular generalizing depth with
  | null => exact ⟨.null, rfl, fun _ => rfl, .null⟩
  | bool b => exact ⟨.bool b, rfl, fun _ => rfl, .bool b⟩
  | string s => exact ⟨.string s, rfl, fun _ => rfl, .string s⟩
  | number x =>
    obtain ⟨n, same, alike, reads⟩ := exists_plain_numeral x
    refine ⟨.number n, ?_, ?_, .number reads⟩
    · rw [ofJson, same]
    · intro level
      rw [print_number, alike]
      rfl
  | @array items _ ih =>
    rw [toJson, toItems_eq_map] at nested
    cases nested with
    | @array depth _ nested =>
      have shown : ∀ item ∈ items, ∃ document, ShownAs depth item document := by
        intro item mem
        exact ih item mem (nested _ (List.mem_map_of_mem mem))
      choose! document inside using shown
      exact ⟨_, shownAs_array inside⟩
  | @object entries ascending _ ih =>
    rw [toJson, toMembers_eq_map] at nested
    cases nested with
    | @object depth _ nested =>
      have shown : ∀ entry ∈ entries, ∃ document, ShownAs depth entry.2 document := by
        intro entry mem
        exact ih entry mem (nested _ (List.mem_map_of_mem mem))
      choose! document inside using shown
      exact ⟨_, shownAs_object ascending inside⟩

/-- The value is shown as a document that can be read: it is no bare string, its numbers are finite
and it is not nested deeper than documents are read. -/
structure Shown (value : Value) : Prop where
  enclosed : ∀ s, value ≠ .string s
  regular : value.Regular
  nested : Bounded maxDepth value.toJson

theorem display_of_ne {value : Value} (enclosed : ∀ s, value ≠ .string s) :
    value.display = String.ofList (value.toJson.print .plain 0) := by
  cases value with
  | string s => exact absurd rfl (enclosed s)
  | _ => rfl

theorem decodeText_display {value : Value} (shown : value.Shown) :
    decodeText decoder value.display = .ok value := by
  obtain ⟨document, stands, alike, readable⟩ := exists_shownAs shown.regular shown.nested
  have decoded : decoder (Draft.ofJson document) = .ok value := by
    rw [decoder, json_ofJson, Outcome.map_ok, stands]
  rw [display_of_ne shown.enclosed, ← alike]
  exact decodeText_print Style.plain_lawful readable decoded

/-- **What a value is shown as is a document that is read back as the value.** It has no blanks, no
exponents and no fractions behind whole numbers at any depth, strings and names in it are escaped,
and different values are shown differently. -/
theorem display_reads_back :
    (∀ value : Value, value.Shown →
      decodeText decoder value.display = .ok value ∧ Spelled value value.display.toList) ∧
    ∀ value other : Value, value.Shown → other.Shown → value.display = other.display →
      value = other := by
  constructor
  · intro value shown
    refine ⟨decodeText_display shown, ?_⟩
    rw [display_of_ne shown.enclosed, String.toList_ofList]
    exact spelled_print shown.regular 0
  · intro value other shown shown' same
    have read := decodeText_display shown
    rw [same, decodeText_display shown'] at read
    exact (Except.ok.inj read).symm

/-- Minus zero keeps its sign, and `2 ^ 64`, which is past the integers that are read, is written
with the fewest digits that are read as it. -/
theorem display_reads_back_minus_zero :
    let huge : Number.Finite := ⟨false, ⟨1087 * 2 ^ 52, by decide⟩⟩
    let value : Value := .array
      [.number (.finite (.zero true)), .object [("say \"hi\"", .number (.finite huge))]]
    let text := "[-0,\x7b\"say \\\"hi\\\"\":18446744073709552000\x7d]"
    value.display = text ∧ decodeText decoder text = .ok value ∧ Spelled value text.toList ∧
      ∀ other : Value, other.Shown → other.display = text → other = value := by
  intro huge value text
  obtain ⟨readsBack, differs⟩ := display_reads_back
  have shown : value.Shown := by
    refine ⟨?_, ?_, ?_⟩
    · intro s
      simp [value]
    · refine .array (List.forall_mem_cons.mpr ⟨.number _, List.forall_mem_singleton.mpr ?_⟩)
      exact .object (List.pairwise_singleton _ _) (List.forall_mem_singleton.mpr (.number huge))
    · refine .array (List.forall_mem_cons.mpr ⟨.real _, List.forall_mem_singleton.mpr ?_⟩)
      exact .object (List.forall_mem_singleton.mpr (.real huge))
  have display : value.display = text := by decide +kernel
  obtain ⟨read, spelled⟩ := readsBack value shown
  rw [display] at read spelled
  refine ⟨display, read, spelled, ?_⟩
  intro other shown' same
  exact differs other value shown' shown (same.trans display.symm)

end Value

end DecisionCompiler
