import DecisionCompiler.Json.Quoted
import Mathlib.Tactic.IntervalCases

/-!
Strings that are quoted and read again.

Every character is quoted as one piece: as itself, escaped or not, or as the 16-bit unit of its code
point if it is a control character without a letter of its own. Such a unit is no half of a
surrogate pair, so joining the pieces gives the characters back (`joinPieces_map_piece`), whatever
follows the closing quote (`readString_escaped`).
-/

namespace DecisionCompiler.Json

/-- The piece that a character is read as when it has been quoted. -/
def piece (c : Char) : Piece :=
  if escapeLetter? c = none ∧ c.toNat < 0x20 then .unit c.toNat else .plain c

theorem hexValue?_hexDigit {n : Nat} (h : n < 16) : hexValue? (hexDigit n) = some n := by
  interval_cases n <;> decide

theorem unit?_control {n : Nat} (h : n < 0x20) :
    unit? '0' '0' (hexDigit (n / 16)) (hexDigit (n % 16)) = some n := by
  have high := hexValue?_hexDigit (by omega : n / 16 < 16)
  have low := hexValue?_hexDigit (by omega : n % 16 < 16)
  have zero : hexValue? '0' = some 0 := by decide
  simp only [unit?, high, low, zero, Option.bind_eq_bind, Option.bind_some, Option.pure_def,
    Option.some.injEq]
  omega

/-- A letter behind a backslash stands for the character that is escaped by it. -/
theorem unescapeLetter?_of_escapeLetter? {c letter : Char} (h : escapeLetter? c = some letter) :
    unescapeLetter? letter = some c ∧ letter ≠ 'u' := by
  unfold escapeLetter? at h
  split at h <;> cases h <;> decide

/-- A quoted character is one piece. -/
theorem scanPieces_escape (met : List Piece) (c : Char) (rest : List Char) :
    scanPieces met (escape c ++ rest) = scanPieces (piece c :: met) rest := by
  unfold escape piece
  cases letter? : escapeLetter? c with
  | some letter =>
    obtain ⟨stands, notUnit⟩ := unescapeLetter?_of_escapeLetter? letter?
    simp [scanPieces, stands, notUnit]
  | none =>
    by_cases control : c.toNat < 0x20
    · simp [scanPieces, control, unit?_control control]
    · have notQuote : c ≠ '"' := by
        rintro rfl
        exact nomatch letter?
      have notBackslash : c ≠ '\\' := by
        rintro rfl
        exact nomatch letter?
      simp [scanPieces, control, notBackslash]

theorem scanPieces_escaped (met : List Piece) (chars rest : List Char) :
    scanPieces met (chars.flatMap escape ++ '"' :: rest) =
      (met.reverse ++ chars.map piece, .ok rest) := by
  induction chars generalizing met with
  | nil => simp [scanPieces]
  | cons c chars ih =>
    rw [List.flatMap_cons, List.append_assoc, scanPieces_escape, ih]
    simp

theorem joinPieces_map_piece (met chars : List Char) :
    joinPieces met (chars.map piece) = .whole (met.reverse ++ chars) := by
  induction chars generalizing met with
  | nil => simp [joinPieces]
  | cons c chars ih =>
    rw [List.map_cons, piece]
    split
    · rename_i control
      -- A control character is far below the surrogates.
      have noLead : leads c.toNat = false := by simp [leads]; omega
      have noTrail : trails c.toNat = false := by simp [trails]; omega
      simpa [joinPieces.eq_def met, noLead, noTrail] using ih (c :: met)
    · simpa [joinPieces] using ih (c :: met)

/-- A quoted string is read as it was, and what stands behind it is left. -/
theorem readString_escaped (s : String) (rest : List Char) :
    readString (s.toList.flatMap escape ++ '"' :: rest) = .ok (s, rest) := by
  simp [readString, scanPieces_escaped, joinPieces_map_piece]

/-- A quoted string can be split off in only one way. -/
theorem quoted_append_inj {first second : String} {rest rest' : List Char}
    (same : quoted first ++ rest = quoted second ++ rest') : first = second ∧ rest = rest' := by
  have read := readString_escaped first rest
  have behindQuote := List.tail_eq_of_cons_eq same
  simp only [List.append_eq, List.append_assoc, List.cons_append, List.nil_append] at behindQuote
  rw [behindQuote, readString_escaped] at read
  simpa [eq_comm] using read

end DecisionCompiler.Json
