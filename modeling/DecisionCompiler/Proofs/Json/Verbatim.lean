import DecisionCompiler.Proofs.Json.Decoding

/-!
Strings that stand between quotes as they are.

A text is verbatim when nothing in it has to be escaped. Quoting leaves such a text alone, and it is
read as itself; any other text is read, if it is read at all, as a string with fewer characters
(`readString_eq_ok`). Between bare quotes a string is therefore a document that reads as the string
exactly when it is verbatim (`parse_enclosed_iff`), and so is an object that binds a key to it
(`parse_binding_iff`).
-/

namespace DecisionCompiler.Json

open Draft Decoder

/-- Nothing in the text has to be escaped between quotes. -/
def Verbatim (text : List Char) : Prop :=
  ∀ c ∈ text, c ≠ '"' ∧ c ≠ '\\' ∧ 0x20 ≤ c.toNat

instance (text : List Char) : Decidable (Verbatim text) :=
  List.decidableBAll _ text

/-- A string between quotes, its characters as they are. -/
def enclosed (s : String) : List Char :=
  '"' :: (s.toList ++ ['"'])

/-! ### Quoting -/

theorem escape_of_verbatim {c : Char} (verbatim : c ≠ '"' ∧ c ≠ '\\' ∧ 0x20 ≤ c.toNat) :
    escape c = [c] := by
  obtain ⟨notQuote, notBackslash, printable⟩ := verbatim
  have noLetter : escapeLetter? c = none := by
    unfold escapeLetter?
    split <;> first | rfl | contradiction
  simp [escape, noLetter, Nat.not_lt.mpr printable]

/-- Quoting leaves a verbatim string as it is. -/
theorem quoted_of_verbatim {s : String} (verbatim : Verbatim s.toList) :
    quoted s = enclosed s := by
  have same : s.toList.flatMap escape = s.toList := by
    calc s.toList.flatMap escape
      _ = s.toList.flatMap fun c => [c] :=
        List.flatMap_congr fun c mem => escape_of_verbatim (verbatim c mem)
      _ = s.toList := List.flatMap_singleton' _
  rw [quoted, same, enclosed]

/-! ### Reading -/

theorem joinPieces_map_plain (met chars : List Char) :
    joinPieces met (chars.map .plain) = .whole (met.reverse ++ chars) := by
  induction chars generalizing met with
  | nil => simp [joinPieces]
  | cons c chars ih => simp [joinPieces, ih]

/-- Joining pieces never gives more characters than there are pieces. -/
theorem length_le_of_joinPieces {met chars : List Char} {pieces : List Piece}
    (joined : joinPieces met pieces = .whole chars) :
    chars.length ≤ met.length + pieces.length := by
  fun_induction joinPieces met pieces with
  | case1 met =>
    obtain rfl := Joined.whole.inj joined
    simp
  | case2 met c rest ih =>
    have := ih joined
    simp only [List.length_cons] at this ⊢
    omega
  | case5 met high leading low rest trailing ih =>
    have := ih joined
    simp only [List.length_cons] at this ⊢
    omega
  | case8 met n rest noLead noTrail ih =>
    have := ih joined
    simp only [List.length_cons] at this ⊢
    omega
  | case3 | case4 | case6 | case7 => exact nomatch joined

/-- What is scanned up to a quote are the characters before the quote, or fewer pieces than
these. -/
theorem scanPieces_eq_ok {met pieces : List Piece} {text rest : List Char}
    (scanned : scanPieces met text = (pieces, .ok rest)) :
    ∃ inside, text = inside ++ '"' :: rest ∧
      (Verbatim inside ∧ pieces = met.reverse ++ inside.map .plain ∨
        pieces.length < met.length + inside.length) := by
  fun_induction scanPieces met text with
  | case2 met rest' =>
    obtain ⟨rfl, ⟨⟩⟩ := Prod.mk.inj scanned
    exact ⟨[], rfl, .inl ⟨List.forall_mem_nil _, by simp⟩⟩
  | case3 met a b c d rest' n digits ih =>
    obtain ⟨inside, rfl, found⟩ := ih scanned
    refine ⟨'\\' :: 'u' :: a :: b :: c :: d :: inside, rfl, .inr ?_⟩
    rcases found with ⟨_, rfl⟩ | fewer
    · simp
    · simp only [List.length_cons] at fewer ⊢
      omega
  | case6 met letter rest' _ _ c stands ih =>
    obtain ⟨inside, rfl, found⟩ := ih scanned
    refine ⟨'\\' :: letter :: inside, rfl, .inr ?_⟩
    rcases found with ⟨_, rfl⟩ | fewer
    · simp
    · simp only [List.length_cons] at fewer ⊢
      omega
  | case10 met c rest' notQuote _ _ noLetter alone notControl ih =>
    obtain ⟨inside, rfl, found⟩ := ih scanned
    have notBackslash : c ≠ '\\' := by
      rintro rfl
      cases inside <;> exact noLetter _ _ rfl rfl
    refine ⟨c :: inside, rfl, ?_⟩
    rcases found with ⟨verbatim, rfl⟩ | fewer
    · refine .inl ⟨List.forall_mem_cons.mpr ⟨⟨notQuote, notBackslash, ?_⟩, verbatim⟩, by simp⟩
      omega
    · right
      simp only [List.length_cons] at fewer ⊢
      omega
  | case1 | case4 | case5 | case7 | case8 | case9 =>
    exact nomatch (Prod.mk.inj scanned).2

theorem exists_of_readString_eq_ok {s : String} {text rest : List Char}
    (read : readString text = .ok (s, rest)) :
    ∃ chars pieces, scanPieces [] text = (pieces, .ok rest) ∧
      joinPieces [] pieces = .whole chars ∧ s = String.ofList chars := by
  unfold readString at read
  rcases scanned : scanPieces [] text with ⟨pieces, next⟩
  rw [scanned] at read
  cases joined : joinPieces [] pieces <;> cases next <;> simp only [joined] at read
  case whole.ok chars behind =>
    obtain ⟨rfl, rfl⟩ := Prod.mk.inj (Except.ok.inj read)
    exact ⟨chars, pieces, rfl, joined, rfl⟩
  all_goals exact nomatch read

/-- **A string is read from itself, or from a longer text.** Either it stands verbatim in front of
the quote, or there are more characters in front of the quote than it has. -/
theorem readString_eq_ok {s : String} {text rest : List Char}
    (read : readString text = .ok (s, rest)) :
    Verbatim s.toList ∧ text = s.toList ++ '"' :: rest ∨
      s.length + 1 + rest.length < text.length := by
  obtain ⟨chars, pieces, scanned, joined, rfl⟩ := exists_of_readString_eq_ok read
  obtain ⟨inside, rfl, ⟨verbatim, rfl⟩ | fewer⟩ := scanPieces_eq_ok scanned
  · rw [List.reverse_nil, List.nil_append, joinPieces_map_plain] at joined
    obtain rfl := Joined.whole.inj joined
    left
    simpa using verbatim
  · have short := length_le_of_joinPieces joined
    right
    simp only [List.length_nil, String.length_ofList, List.length_append, List.length_cons] at *
    omega

/-! ### Documents -/

theorem parse_eq_ok_iff {text : String} {document : Json} :
    parse text = .ok document ↔
      ∃ draft rest, ofText text = ⟨draft, some rest⟩ ∧ json draft = .ok document ∧
        skipGap rest = [] := by
  unfold parse decodeText
  obtain ⟨draft, rest⟩ := ofText text
  simp only [Reading.mk.injEq]
  constructor
  · intro parsed
    split at parsed
    · exact nomatch parsed
    · rename_i document' decoded
      split at parsed
      · rename_i ended
        obtain rfl := Except.ok.inj parsed
        obtain ⟨rest, rfl, blank⟩ := Option.map_eq_some_iff.mp ended
        exact ⟨draft, rest, ⟨rfl, rfl⟩, decoded, blank⟩
      · exact nomatch parsed
  · rintro ⟨_, rest, ⟨rfl, rfl⟩, decoded, blank⟩
    simp [decoded, blank]

/-- What begins with a quote is read as a string. -/
theorem readValue_opened {size depth : ℕ} (text : List Char) :
    readValue size depth ('"' :: text) =
      match readString text with
      | .ok (s, rest) => ⟨.string s, some rest⟩
      | .error fault => .stuckAt ('"' :: text) fault := by
  rw [readValue_eq_readScalar (by decide) (by decide)]
  cases read : readString text <;> simp [readScalar, read]

/-- **Between bare quotes a string reads as itself exactly when it is verbatim.** -/
theorem parse_enclosed_iff {s : String} :
    parse (String.ofList (enclosed s)) = .ok (.string s) ↔ Verbatim s.toList := by
  constructor
  · intro parsed
    obtain ⟨draft, rest, reading, decoded, _⟩ := parse_eq_ok_iff.mp parsed
    rw [ofText, String.toList_ofList, enclosed, skipGap_cons rfl, readValue_opened] at reading
    cases read : readString (s.toList ++ ['"']) with
    | error fault => simp [read, Reading.stuckAt] at reading
    | ok found =>
      obtain ⟨s', rest'⟩ := found
      simp only [read, Reading.mk.injEq] at reading
      obtain ⟨rfl, _⟩ := reading
      obtain rfl : s' = s := by simpa [json] using decoded
      rcases readString_eq_ok read with ⟨verbatim, _⟩ | longer
      · exact verbatim
      · simp only [List.length_append, List.length_singleton, String.length_toList] at longer
        omega
  · intro verbatim
    have printed : parse (String.ofList (print .compact 0 (.string s))) = .ok (.string s) :=
      parse_print Style.compact_lawful (.string s)
    rwa [print, quoted_of_verbatim verbatim] at printed

/-! ### Objects with one member -/

/-- Members that were met stay at the head of the object, whatever follows. -/
theorem readMembers_keeps (value : List Char → Reading) (steps : ℕ) (met : List (String × Draft))
    (text : List Char) :
    ∃ members gap, (readMembers value steps met text).draft =
      .object (met.reverse ++ members) gap := by
  induction steps generalizing met text with
  | zero => exact ⟨[], _, by rw [readMembers, List.append_nil]⟩
  | succ steps ih =>
    rw [readMembers]
    dsimp only
    -- The object ends without a further member or with one, or a comma hands that one on.
    repeat' split
    all_goals
      first
      | exact ⟨[], _, by rw [List.append_nil]⟩
      | exact ⟨[_], _, by rw [List.reverse_cons]⟩
      | (obtain ⟨members, gap, kept⟩ := ih ((_, _) :: met) _
         exact ⟨_ :: members, gap, by rw [kept, List.reverse_cons, List.append_assoc]; rfl⟩)

/-- The first member of an object is the one that its text begins with, and the object is not closed
where its text ends. -/
theorem readMembers_first (value : List Char → Reading) (steps : ℕ) (key : String)
    (text : List Char) :
    (∃ members gap,
      (readMembers value (steps + 1) [] (quoted key ++ ':' :: '"' :: text)).draft =
        .object ((key, (value ('"' :: text)).draft) :: members) gap) ∧
      ((value ('"' :: text)).rest = some [] →
        (readMembers value (steps + 1) [] (quoted key ++ ':' :: '"' :: text)).rest = none) := by
  rw [readMembers, quoted]
  simp only [List.cons_append, List.append_assoc, List.nil_append,
    skipGap_cons (rfl : isGap '"' = false), readString_escaped,
    skipGap_cons (rfl : isGap ':' = false)]
  constructor
  · split
    · exact ⟨[], _, rfl⟩
    · split
      · obtain ⟨members, gap, kept⟩ := readMembers_keeps value steps _ _
        exact ⟨members, gap, kept⟩
      · exact ⟨[], _, rfl⟩
      · exact ⟨[], _, rfl⟩
  · intro ended
    simp [ended, skipGap]

/-- The object that binds a key to a string between bare quotes. -/
def binding (key s : String) : List Char :=
  '{' :: (quoted key ++ ':' :: (enclosed s ++ ['}']))

theorem ofText_binding (key s : String) :
    ∃ size steps, ofText (String.ofList (binding key s)) =
      readMembers (readValue size 126) (steps + 1) []
        (quoted key ++ ':' :: '"' :: (s.toList ++ ['"', '}'])) := by
  refine ⟨(binding key s).length, (quoted key ++ ':' :: (enclosed s ++ ['}'])).length, ?_⟩
  rw [ofText, String.toList_ofList, binding, skipGap_cons rfl]
  have noBlank : Blank [] := List.forall_mem_nil _
  refine (readValue_curly noBlank key _).trans ?_
  simp [enclosed]

/-- **An object binds its key to a string between bare quotes exactly when the string is
verbatim.** -/
theorem parse_binding_iff {key s : String} :
    parse (String.ofList (binding key s)) = .ok (.object [(key, .string s)]) ↔
      Verbatim s.toList := by
  constructor
  · intro parsed
    obtain ⟨draft, rest, reading, decoded, _⟩ := parse_eq_ok_iff.mp parsed
    obtain ⟨size, steps, read⟩ := ofText_binding key s
    obtain ⟨⟨members, gap, first⟩, unclosed⟩ :=
      readMembers_first (readValue size 126) steps key (s.toList ++ ['"', '}'])
    rw [← read, reading, readValue_opened] at first unclosed
    simp only at first unclosed
    rw [first, json, jsonMembers] at decoded
    cases inside : readString (s.toList ++ ['"', '}']) with
    | error fault => simp [inside, Reading.stuckAt, json] at decoded
    | ok found =>
      obtain ⟨s', rest'⟩ := found
      simp only [inside, json, Outcome.ok_bind, Outcome.bind_eq_ok_iff] at decoded
      obtain ⟨_, ⟨_, _, ⟨⟩⟩, _, _, ⟨⟩⟩ := decoded
      rcases readString_eq_ok inside with ⟨verbatim, _⟩ | longer
      · exact verbatim
      · obtain rfl : rest' = [] := by
          simp only [List.length_append, List.length_cons, List.length_nil, String.length_toList]
            at longer
          exact List.length_eq_zero_iff.mp (by omega)
        simp [inside] at unclosed
  · intro verbatim
    have printed : parse (String.ofList (print .compact 0 (.object [(key, .string s)]))) =
        .ok (.object [(key, .string s)]) :=
      parse_print Style.compact_lawful (.object (by simpa using .string s))
    simp only [print, printMembers, Style.compact, quoted_of_verbatim verbatim] at printed
    simpa [binding] using printed

end DecisionCompiler.Json
