import DecisionCompiler.Json.Printer
import DecisionCompiler.Json.Decoder
import DecisionCompiler.Proofs.Json.Strings

/-!
Documents that are printed and read again.

A style is lawful when what it puts between tokens is blank (`Style.Lawful`). A document is readable
in a style, with room for containers of a given depth, when its numbers are read as they are written
and its containers are not nested deeper (`Readable`). Such a document is read from its text to the
last character, and what follows the text is left (`readValue_print`); decoding the text is
therefore decoding the document (`decodeText_print`).
-/

namespace DecisionCompiler.Json

open Draft

/-! ### Blanks -/

/-- The text is blank. -/
def Blank (text : List Char) : Prop :=
  ∀ c ∈ text, isGap c = true

/-- What a style puts between the tokens is blank. -/
structure Style.Lawful (style : Style) : Prop where
  gap : ∀ depth, Blank (style.gap depth)
  colon : ∃ blanks, style.colon = ':' :: blanks ∧ Blank blanks

theorem Style.compact_lawful : Style.compact.Lawful where
  gap _ := List.forall_mem_nil _
  colon := ⟨[], rfl, List.forall_mem_nil _⟩

theorem Style.pretty_lawful : Style.pretty.Lawful where
  gap depth := by
    refine List.forall_mem_cons.mpr ⟨rfl, fun c mem => ?_⟩
    rw [List.eq_of_mem_replicate mem]
    rfl
  colon := ⟨[' '], rfl, by simp [Blank, isGap]⟩

theorem Style.plain_lawful : Style.plain.Lawful where
  gap _ := List.forall_mem_nil _
  colon := ⟨[], rfl, List.forall_mem_nil _⟩

theorem skipGap_append {blanks : List Char} (blank : Blank blanks) (text : List Char) :
    skipGap (blanks ++ text) = skipGap text :=
  List.dropWhile_append_of_pos blank

theorem skipGap_cons {c : Char} (solid : isGap c = false) (text : List Char) :
    skipGap (c :: text) = c :: text := by
  simp [skipGap, solid]

/-- The text does not go on with a character that a number could go on with. -/
def Delimited (text : List Char) : Prop :=
  ∀ c ∈ text.head?, c.isDigit = false ∧ c ≠ '.' ∧ c ≠ 'e' ∧ c ≠ 'E'

theorem delimited_append {blanks text : List Char} (blank : Blank blanks)
    (delimited : Delimited text) : Delimited (blanks ++ text) := by
  cases blanks with
  | nil => exact delimited
  | cons c blanks =>
    have gap := blank c List.mem_cons_self
    simp only [isGap, Bool.or_eq_true, beq_iff_eq] at gap
    intro c' head
    obtain rfl : c = c' := by simpa using head
    rcases gap with ((rfl | rfl) | rfl) | rfl <;> decide

/-- The text begins with a character that is neither blank nor closes a container. -/
def Starts (text : List Char) : Prop :=
  ∃ c rest, text = c :: rest ∧ isGap c = false ∧ c ≠ ']' ∧ c ≠ '}'

theorem Starts.skipGap_eq {text : List Char} (starts : Starts text) (rest : List Char) :
    skipGap (text ++ rest) = text ++ rest := by
  obtain ⟨c, tail, rfl, solid, _⟩ := starts
  exact skipGap_cons solid _

/-! ### Readable documents -/

/-- The text of a number. -/
def Style.numeral (style : Style) : Numeral → List Char
  | .integer n => integerText n
  | .real x => style.real x

/-- A number is read as it is written, wherever it is delimited. -/
structure Style.Reads (style : Style) (n : Numeral) : Prop where
  head : ∃ c text, style.numeral n = c :: text ∧ (c = '-' ∨ c.isDigit = true)
  read : ∀ rest, Delimited rest → readNumber (style.numeral n ++ rest) = .ok (n, rest)

/-- The numbers of a document are read as they are written, and its containers are nested at most to
the given depth. -/
inductive Readable (style : Style) : Nat → Json → Prop where
  | null {depth : Nat} : Readable style depth .null
  | bool {depth : Nat} (b : Bool) : Readable style depth (.bool b)
  | number {depth : Nat} {n : Numeral} (reads : style.Reads n) : Readable style depth (.number n)
  | string {depth : Nat} (s : String) : Readable style depth (.string s)
  | array {depth : Nat} {items : List Json} (inside : ∀ item ∈ items, Readable style depth item) :
      Readable style (depth + 1) (.array items)
  | object {depth : Nat} {members : List (String × Json)}
      (inside : ∀ member ∈ members, Readable style depth member.2) :
      Readable style (depth + 1) (.object members)

section Printed

variable {style : Style} {depth level size : Nat} {json : Json}

theorem print_number (n : Numeral) : print style level (.number n) = style.numeral n := by
  cases n <;> rfl

theorem starts_of_digit {c : Char} (digit : c = '-' ∨ c.isDigit = true) :
    isGap c = false ∧ c ≠ ']' ∧ c ≠ '}' := by
  rcases digit with rfl | digit
  · decide
  · refine ⟨?_, ?_, ?_⟩
    · by_contra gap
      simp only [isGap, Bool.not_eq_false, Bool.or_eq_true, beq_iff_eq] at gap
      rcases gap with ((rfl | rfl) | rfl) | rfl <;> exact absurd digit (by decide)
    · rintro rfl
      exact absurd digit (by decide)
    · rintro rfl
      exact absurd digit (by decide)

theorem Readable.starts (readable : Readable style depth json) :
    Starts (json.print style level) := by
  cases readable with
  | null => exact ⟨'n', _, rfl, by decide⟩
  | bool b => cases b <;> exact ⟨_, _, rfl, by decide⟩
  | number reads =>
    obtain ⟨c, text, written, digit⟩ := reads.head
    exact ⟨c, text, (print_number _).trans written, starts_of_digit digit⟩
  | string s => exact ⟨'"', _, rfl, by decide⟩
  | @array _ items =>
    cases items <;> exact ⟨'[', _, rfl, by decide⟩
  | @object _ members =>
    rcases members with _ | ⟨⟨name, json⟩, members⟩ <;> exact ⟨'{', _, rfl, by decide⟩

/-- Outside of containers, a value is read as a scalar. -/
theorem readValue_eq_readScalar {c : Char} {text : List Char} (notSquare : c ≠ '[')
    (notCurly : c ≠ '{') : readValue size depth (c :: text) = readScalar (c :: text) := by
  cases depth <;> simp [readValue, notSquare, notCurly]

theorem readScalar_of_digit {c : Char} (digit : c = '-' ∨ c.isDigit = true) {text rest : List Char}
    {n : Numeral} (read : readNumber (c :: text) = .ok (n, rest)) :
    readScalar (c :: text) = ⟨.number n, some rest⟩ := by
  have other : c ≠ '"' ∧ c ≠ 'n' ∧ c ≠ 't' ∧ c ≠ 'f' := by
    refine ⟨?_, ?_, ?_, ?_⟩ <;> (rintro rfl; exact absurd digit (by decide))
  simp [readScalar, other, digit, read]

theorem readValue_square {blanks text : List Char} (blank : Blank blanks) (starts : Starts text)
    (rest : List Char) :
    readValue size (depth + 1) ('[' :: (blanks ++ (text ++ rest))) =
      readItems (readValue size depth) size [] (text ++ rest) := by
  obtain ⟨c, tail, rfl, solid, notSquare, _⟩ := starts
  simp [readValue, skipGap_append blank, skipGap_cons solid, notSquare]

theorem readValue_curly {blanks : List Char} (blank : Blank blanks) (name : String)
    (rest : List Char) :
    readValue size (depth + 1) ('\x7b' :: (blanks ++ (quoted name ++ rest))) =
      readMembers (readValue size depth) size [] (quoted name ++ rest) := by
  simp [readValue, quoted, skipGap_append blank, skipGap_cons (rfl : isGap '"' = false)]

/-! ### Elements of containers -/

theorem delimited_cons {c : Char} (ends : c = ',' ∨ c = ']' ∨ c = '}') (rest : List Char) :
    Delimited (c :: rest) := by
  intro c' head
  obtain rfl : c = c' := by simpa using head
  rcases ends with rfl | rfl | rfl <;> decide

/-- A document is read wherever its text stands in front of a delimiter. -/
structure ReadBy (style : Style) (level : Nat) (value : List Char → Reading) (json : Json) :
    Prop where
  starts : Starts (json.print style level)
  read : ∀ rest, Delimited rest → value (json.print style level ++ rest) = ⟨ofJson json, some rest⟩

variable {value : List Char → Reading} {rest : List Char}

/-- Items are read one after the other; the room that counts is one step for an item. -/
theorem readItems_print (lawful : style.Lawful) {item : Json} {items : List Json}
    (each : ∀ i ∈ item :: items, ReadBy style level value i) {steps : Nat}
    (room : items.length < steps) (met : List Draft) {blanks closing : List Char}
    (blank : Blank blanks) (closed : Blank closing) :
    readItems value steps met (blanks ++ (item.print style level ++
        (printItems style level items ++ (closing ++ ']' :: rest)))) =
      ⟨.array (met.reverse ++ ofItems (item :: items)) none, some rest⟩ := by
  induction items generalizing item steps met blanks with
  | nil =>
    obtain ⟨steps, rfl⟩ := Nat.exists_eq_add_one.mpr room
    have first := each item List.mem_cons_self
    have read := first.read (closing ++ ']' :: rest)
      (delimited_append closed (delimited_cons (by simp) _))
    rw [readItems, printItems, List.nil_append, skipGap_append blank, first.starts.skipGap_eq, read]
    simp only [skipGap_append closed, skipGap_cons (rfl : isGap ']' = false)]
    simp [ofItems]
  | cons next items ih =>
    obtain ⟨steps, rfl⟩ := Nat.exists_eq_add_one.mpr (Nat.zero_lt_of_lt room)
    have first := each item List.mem_cons_self
    have behindFirst : ∀ i ∈ next :: items, ReadBy style level value i := fun i mem =>
      each i (List.mem_cons_of_mem _ mem)
    have others := ih behindFirst (Nat.lt_of_succ_lt_succ room) (ofJson item :: met)
      (lawful.gap level)
    have read := first.read (',' :: (style.gap level ++ (next.print style level ++
      (printItems style level items ++ (closing ++ ']' :: rest))))) (delimited_cons (by simp) _)
    rw [readItems, printItems, skipGap_append blank, first.starts.skipGap_eq]
    simp only [List.cons_append, List.append_assoc, read, skipGap_cons (rfl : isGap ',' = false)]
    rw [others]
    simp [ofItems]

/-- Members are read one after the other, each with its name and its colon. -/
theorem readMembers_print (lawful : style.Lawful) {name : String} {json : Json}
    {members : List (String × Json)}
    (each : ∀ member ∈ (name, json) :: members, ReadBy style level value member.2) {steps : Nat}
    (room : members.length < steps) (met : List (String × Draft)) {blanks closing : List Char}
    (blank : Blank blanks) (closed : Blank closing) :
    readMembers value steps met (blanks ++ (quoted name ++ (style.colon ++
        (json.print style level ++
          (printMembers style level members ++ (closing ++ '}' :: rest)))))) =
      ⟨.object (met.reverse ++ ofMembers ((name, json) :: members)) none, some rest⟩ := by
  obtain ⟨behind, colon, between⟩ := lawful.colon
  induction members generalizing name json steps met blanks with
  | nil =>
    obtain ⟨steps, rfl⟩ := Nat.exists_eq_add_one.mpr room
    have first := each (name, json) List.mem_cons_self
    have read := first.read (closing ++ '}' :: rest)
      (delimited_append closed (delimited_cons (by simp) _))
    rw [readMembers, printMembers, List.nil_append, skipGap_append blank, quoted, colon]
    simp only [List.cons_append, List.append_assoc, List.nil_append,
      skipGap_cons (rfl : isGap '"' = false), readString_escaped,
      skipGap_cons (rfl : isGap ':' = false), skipGap_append between, first.starts.skipGap_eq, read,
      skipGap_append closed, skipGap_cons (rfl : isGap '}' = false)]
    simp [ofMembers]
  | cons next members ih =>
    obtain ⟨steps, rfl⟩ := Nat.exists_eq_add_one.mpr (Nat.zero_lt_of_lt room)
    have first := each (name, json) List.mem_cons_self
    have behindFirst : ∀ member ∈ (next.1, next.2) :: members, ReadBy style level value member.2 :=
      fun member mem => each member (List.mem_cons_of_mem _ mem)
    have others := ih behindFirst (Nat.lt_of_succ_lt_succ room) ((name, ofJson json) :: met)
      (lawful.gap level)
    have read := first.read (',' :: (style.gap level ++ (quoted next.1 ++ (style.colon ++
      (next.2.print style level ++
        (printMembers style level members ++ (closing ++ '}' :: rest)))))))
      (delimited_cons (by simp) _)
    rw [readMembers, printMembers, skipGap_append blank, quoted]
    simp only [colon, List.cons_append, List.append_assoc, List.nil_append] at read others ⊢
    simp only [skipGap_cons (rfl : isGap '"' = false), readString_escaped,
      skipGap_cons (rfl : isGap ':' = false), skipGap_append between, first.starts.skipGap_eq, read,
      skipGap_cons (rfl : isGap ',' = false), others]
    simp [ofMembers]

/-! ### Documents -/

theorem length_printItems (style : Style) (level : Nat) (items : List Json) :
    items.length ≤ (printItems style level items).length := by
  induction items with
  | nil => exact Nat.le_refl _
  | cons item items ih =>
    simp only [printItems, List.length_cons, List.length_append]
    omega

theorem length_printMembers (style : Style) (level : Nat) (members : List (String × Json)) :
    members.length ≤ (printMembers style level members).length := by
  induction members with
  | nil => exact Nat.le_refl _
  | cons member members ih =>
    simp only [printMembers, List.length_cons, List.length_append]
    omega

theorem length_print_of_mem (style : Style) (level : Nat) {items : List Json} (mem : json ∈ items) :
    (json.print style level).length ≤ (printItems style level items).length := by
  induction items with
  | nil => exact nomatch mem
  | cons item items ih =>
    simp only [printItems, List.length_cons, List.length_append]
    rcases List.mem_cons.mp mem with rfl | mem
    · omega
    · have := ih mem
      omega

theorem length_print_of_mem_members (style : Style) (level : Nat) {members : List (String × Json)}
    {member : String × Json} (mem : member ∈ members) :
    (member.2.print style level).length ≤ (printMembers style level members).length := by
  induction members with
  | nil => exact nomatch mem
  | cons first members ih =>
    simp only [printMembers, List.length_cons, List.length_append]
    rcases List.mem_cons.mp mem with rfl | mem
    · omega
    · have := ih mem
      omega

/-- **A readable document is read from its text.** What stands behind the text is left. -/
theorem readValue_print (lawful : style.Lawful) (readable : Readable style depth json)
    (enough : (json.print style level).length ≤ size) (delimited : Delimited rest) :
    readValue size depth (json.print style level ++ rest) = ⟨ofJson json, some rest⟩ := by
  induction readable generalizing level rest with
  | null => simp [print, readValue_eq_readScalar, readScalar, expectWord, ofJson]
  | bool b => cases b <;> simp [print, readValue_eq_readScalar, readScalar, expectWord, ofJson]
  | string s =>
    simp [print, quoted, readValue_eq_readScalar, readScalar, readString_escaped, ofJson]
  | @number _ n reads =>
    obtain ⟨c, text, written, digit⟩ := reads.head
    have read := reads.read rest delimited
    obtain ⟨notSquare, notCurly⟩ : c ≠ '[' ∧ c ≠ '\x7b' := by
      constructor <;> (rintro rfl; exact absurd digit (by decide))
    rw [print_number]
    rw [written, List.cons_append] at read ⊢
    rw [readValue_eq_readScalar notSquare notCurly, readScalar_of_digit digit read, ofJson]
  | @array depth items inside ih =>
    cases items with
    | nil => simp [print, readValue, skipGap_cons (rfl : isGap ']' = false), ofJson, ofItems]
    | cons item items =>
      simp only [print, List.length_cons, List.length_append] at enough
      have each : ∀ i ∈ item :: items, ReadBy style (level + 1) (readValue size depth) i := by
        intro i mem
        have short : (i.print style (level + 1)).length ≤ size := by
          rcases List.mem_cons.mp mem with rfl | mem
          · omega
          · have := length_print_of_mem style (level + 1) mem
            omega
        exact ⟨(inside i mem).starts, fun rest delimited => ih i mem short delimited⟩
      have room : items.length < size := by
        have := length_printItems style (level + 1) items
        omega
      simp only [print, List.cons_append, List.append_assoc, List.nil_append]
      rw [readValue_square (lawful.gap _) (each item List.mem_cons_self).starts]
      exact readItems_print lawful each room [] (List.forall_mem_nil _) (lawful.gap level)
  | @object depth members inside ih =>
    rcases members with _ | ⟨⟨name, json⟩, members⟩
    · simp [print, readValue, skipGap_cons (rfl : isGap '\x7d' = false), ofJson, ofMembers]
    · simp only [print, List.length_cons, List.length_append] at enough
      have each : ∀ member ∈ (name, json) :: members,
          ReadBy style (level + 1) (readValue size depth) member.2 := by
        intro member mem
        have short : (member.2.print style (level + 1)).length ≤ size := by
          rcases List.mem_cons.mp mem with rfl | mem
          · dsimp only
            omega
          · have := length_print_of_mem_members style (level + 1) mem
            omega
        exact ⟨(inside member mem).starts, fun rest delimited => ih member mem short delimited⟩
      have room : members.length < size := by
        have := length_printMembers style (level + 1) members
        omega
      simp only [print, List.cons_append, List.append_assoc, List.nil_append]
      rw [readValue_curly (lawful.gap _)]
      exact readMembers_print lawful each room [] (List.forall_mem_nil _) (lawful.gap level)

/-- The text of a readable document is read to its end. -/
theorem ofText_print (lawful : style.Lawful) (readable : Readable style maxDepth json) :
    ofText (String.ofList (json.print style 0)) = ⟨ofJson json, some []⟩ := by
  have starts : Starts (json.print style 0) := readable.starts
  have noGap := starts.skipGap_eq []
  have ended : Delimited [] := by simp [Delimited]
  have read := readValue_print lawful readable (Nat.le_refl (json.print style 0).length) ended
  rw [List.append_nil] at noGap read
  rw [ofText, String.toList_ofList, noGap, read]

/-- Decoding the text of a readable document is decoding the document. -/
theorem decodeText_print {α : Type} (lawful : style.Lawful)
    (readable : Readable style maxDepth json) {decoder : Decoder α} {a : α}
    (decoded : decoder (ofJson json) = .ok a) :
    decodeText decoder (String.ofList (json.print style 0)) = .ok a := by
  rw [decodeText, ofText_print lawful readable]
  simp [decoded, skipGap]

end Printed

end DecisionCompiler.Json
