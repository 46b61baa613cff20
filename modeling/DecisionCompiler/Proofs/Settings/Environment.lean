import DecisionCompiler.Settings.Assignments
import DecisionCompiler.Proofs.Settings.Layers
import DecisionCompiler.Proofs.Text.Split
import Mathlib.Data.List.Chain

/-!
The environment, and files that add to it.

Whatever a file of assignments holds, reading it puts new variables behind those of the environment
and leaves these as they are (`extends_read`), so that a variable that has a value keeps it
(`Extends.get?`). A file of plain assignments adds them in turn (`read_textOf`): its lines are told
apart at their ends, and in each of them the name ends at the sign and the value stands for itself.
A value in single quotes is kept whatever it holds (`readValue_enclosed`), and behind a dollar sign
stands the value of another variable (`readValue_reference`).

The variable of a setting is the name of the setting behind the mark, in capitals or not
(`keyOf?_marked`).
-/

namespace DecisionCompiler

/-! ### Names of variables -/

namespace Environment

/-- A text without double underscores has no points put in. -/
theorem withPoints_eq_self {text : List Char}
    (single : text.IsChain fun c d => ¬(c = '_' ∧ d = '_')) : withPoints text = text := by
  induction text with
  | nil => rfl
  | cons c rest ih =>
    have behind : withPoints (c :: rest) = c :: withPoints rest := by
      rw [withPoints]
      rintro rest' rfl rfl
      exact (List.isChain_cons_cons.mp single).1 ⟨rfl, rfl⟩
    rw [behind, ih single.tail]

theorem toLower_eq_underscore_iff {c : Char} : c.toLower = '_' ↔ c = '_' := by
  constructor
  · intro same
    rcases Text.toLower_eq_or c with kept | ⟨letter, _⟩
    · rw [← kept, same]
    · rw [same] at letter
      exact absurd letter (by decide)
  · rintro rfl
    decide

/-- The variable of a setting: what stands behind the mark, in lower case, is the key. -/
theorem keyOf?_marked {rest : List Char} (ascii : ∀ c ∈ rest, c.toNat < 0x80)
    (single : rest.IsChain fun c d => ¬(c = '_' ∧ d = '_')) :
    keyOf? (String.ofList (['D', 'A', 'N', 'G', '_'] ++ rest)) =
      some (String.ofList (rest.map Char.toLower)) := by
  have lower : rest.map Text.foldChar = rest.map Char.toLower :=
    List.map_congr_left fun c mem => Text.foldChar_of_lt (ascii c mem)
  have marked : (['D', 'A', 'N', 'G', '_'] ++ rest).map Text.foldChar =
      mark ++ rest.map Char.toLower := by
    rw [List.map_append, lower]
    rfl
  have singleLower : (rest.map Char.toLower).IsChain fun c d => ¬(c = '_' ∧ d = '_') := by
    rw [List.isChain_map]
    simpa only [toLower_eq_underscore_iff] using single
  rw [keyOf?, String.toList_ofList, marked, Text.dropPrefix?_eq_some_iff.mpr rfl, Option.map_some,
    withPoints_eq_self singleLower]

example : keyOf? "Dang_Log_Level" = some "log_level" := by decide

example : keyOf? "DANG_REPOSITORY__TYPE" = some "repository.type" := by decide

end Environment

namespace Assignments

open Environment

variable {environment : Environment} {name value : String} {lookup : String → String}
  {met text rest : List Char} {c : Char}

/-! ### What reading a file leaves alone -/

/-- The variables are those of the environment, and behind them others that it does not have. -/
def Extends (environment larger : Environment) : Prop :=
  ∃ added, larger.entries = environment.entries ++ added ∧
    ∀ entry ∈ added, Entries.get? entry.1 environment.entries = none

theorem Extends.refl (environment : Environment) : Extends environment environment :=
  ⟨[], (List.append_nil _).symm, List.forall_mem_nil _⟩

theorem Extends.get? {larger : Environment} (extension : Extends environment larger)
    (set : Entries.get? name environment.entries = some value) :
    Entries.get? name larger.entries = some value := by
  obtain ⟨added, entries, _⟩ := extension
  rw [entries, Entries.get?, List.lookup_append]
  rw [Entries.get?] at set
  rw [set, Option.some_or]

theorem extends_addNew (environment : Environment) (name value : String) :
    Extends environment (environment.addNew name value) := by
  unfold addNew
  split
  · exact .refl environment
  · rename_i unset
    refine ⟨[(name, value)], rfl, List.forall_mem_singleton.mpr ?_⟩
    simpa using unset

theorem Extends.trans {middle larger : Environment} (first : Extends environment middle)
    (second : Extends middle larger) : Extends environment larger := by
  obtain ⟨added, entries, new⟩ := first
  obtain ⟨further, entries', new'⟩ := second
  refine ⟨added ++ further, by rw [entries', entries, List.append_assoc], ?_⟩
  refine List.forall_mem_append.mpr ⟨new, fun entry mem => ?_⟩
  have unset := new' entry mem
  rw [entries, Entries.get?, List.lookup_append, Option.or_eq_none_iff] at unset
  exact unset.1

theorem extends_readLines (lines : List (Option (List Char))) (environment : Environment) :
    Extends environment (readLines environment lines) := by
  induction lines generalizing environment with
  | nil => exact .refl environment
  | cons line lines ih =>
    cases line with
    | none => exact .refl environment
    | some line =>
      rw [readLines]
      split
      · exact .refl environment
      · exact ih environment
      · rename_i name value _
        exact (extends_addNew environment name value).trans (ih _)

/-- **A file adds to the environment and changes nothing in it.** -/
theorem extends_read (environment : Environment) (text : String) :
    Extends environment (read environment text) :=
  extends_readLines _ environment

/-! ### Characters that stand for themselves -/

/-- The character is no blank, and none of those that quote, escape or put a value in. -/
def Literal (c : Char) : Prop :=
  Text.isBlank c = false ∧ c ∉ ['$', '\'', '"', '\\']

/-- The characters of names are ASCII, and none of them is special. -/
theorem literal_of_isNameChar (named : isNameChar c = true) : Literal c := by
  have range : c.toNat = 46 ∨ c.toNat = 95 ∨ (48 ≤ c.toNat ∧ c.toNat ≤ 57) ∨
      (65 ≤ c.toNat ∧ c.toNat ≤ 90) ∨ (97 ≤ c.toNat ∧ c.toNat ≤ 122) := by
    change (c.isUpper || c.isLower || c.isDigit || c == '_' || c == '.') = true at named
    simp only [Bool.or_eq_true, beq_iff_eq] at named
    rcases named with (((upper | lower) | digit) | rfl) | rfl
    · have inside : 65 ≤ c.toNat ∧ c.toNat ≤ 90 := of_decide_eq_true upper
      omega
    · obtain ⟨above, below⟩ := Bool.and_eq_true_iff.mp lower
      have inside : 97 ≤ c.toNat ∧ c.toNat ≤ 122 :=
        ⟨of_decide_eq_true above, of_decide_eq_true below⟩
      omega
    · obtain ⟨above, below⟩ := Bool.and_eq_true_iff.mp digit
      have inside : 48 ≤ c.toNat ∧ c.toNat ≤ 57 :=
        ⟨of_decide_eq_true above, of_decide_eq_true below⟩
      omega
    · exact .inr (.inl rfl)
    · exact .inl rfl
  have apart : ∀ d ∈ ['$', '\'', '"', '\\'], c ≠ d := by
    rintro d mem rfl
    simp only [List.mem_cons, List.not_mem_nil, or_false] at mem
    rcases mem with rfl | rfl | rfl | rfl <;> revert range <;> decide
  refine ⟨?_, fun mem => apart c mem rfl⟩
  simp only [Text.isBlank, Text.blankRanges, List.any_cons, List.any_nil, Bool.or_false,
    Bool.or_eq_false_iff, Bool.and_eq_false_iff, decide_eq_false_iff_not]
  omega

theorem next_plain (literal : Literal c) : Mode.plain.next c = some .plain := by
  obtain ⟨solid, ordinary⟩ := literal
  simp only [List.mem_cons, not_or, List.not_mem_nil, not_false_eq_true, and_true] at ordinary
  simp [Mode.next, solid, ordinary]

/-! ### Values -/

theorem readValue_literal (literal : ∀ c ∈ text, Literal c) :
    readValue lookup .bare met text = some (met.reverse ++ text) := by
  induction text generalizing met with
  | nil => simp [readValue]
  | cons c text ih =>
    obtain ⟨⟨solid, ordinary⟩, others⟩ := List.forall_mem_cons.mp literal
    simp only [List.mem_cons, not_or, List.not_mem_nil, not_false_eq_true, and_true] at ordinary
    obtain ⟨dollar, single, double, backslash⟩ := ordinary
    have space : c ≠ ' ' := by
      rintro rfl
      exact absurd solid (by decide)
    have tab : c ≠ '\t' := by
      rintro rfl
      exact absurd solid (by decide)
    simp [readValue, dollar, single, double, backslash, space, tab, ih others]

/-- Inside of single quotes every other character stands for itself. -/
theorem readValue_enclosed (apart : '\'' ∉ text) :
    readValue lookup .bare [] ('\'' :: (text ++ ['\''])) = some text := by
  have inside : ∀ met,
      readValue lookup .strong met (text ++ ['\'']) = some (met.reverse ++ text) := by
    induction text with
    | nil => intro met; simp [readValue]
    | cons c text ih =>
      intro met
      obtain ⟨other, apart⟩ := List.ne_and_not_mem_of_not_mem_cons apart
      rw [List.cons_append, readValue, if_neg (Ne.symm other), ih apart]
      simp
  rw [readValue]
  exact inside []

/-- A dollar sign in front of a name stands for the value of the variable. -/
theorem readValue_reference (named : ∀ c ∈ text, Text.isAlphanumeric c = true) :
    readValue lookup .bare [] ('$' :: text) = some (lookup (String.ofList text)).toList := by
  have inside : ∀ name, readValue lookup (.dollar false name) [] text =
      some (lookup (String.ofList (name.reverse ++ text))).toList := by
    induction text with
    | nil => intro name; simp [readValue]
    | cons c text ih =>
      intro name
      obtain ⟨alphanumeric, others⟩ := List.forall_mem_cons.mp named
      rw [readValue, if_pos alphanumeric, ih others]
      simp
  rw [readValue]
  exact inside []

/-! ### Plain assignments -/

/-- The assignment is written with the name and the value as they are. -/
structure Plain (name value : String) : Prop where
  named : ∀ c ∈ name.toList, isNameChar c = true
  begins : ∃ c ∈ name.toList.head?, (c.isAlpha || c == '_') = true
  literal : ∀ c ∈ value.toList, Literal c
  noComment : value.toList.head? ≠ some '#'

/-- The line of an assignment, without its end. -/
def lineOf (assignment : String × String) : List Char :=
  assignment.1.toList ++ '=' :: assignment.2.toList

theorem dropWhile_isBlank (solid : ∀ c ∈ text, Text.isBlank c = false) :
    text.dropWhile Text.isBlank = text := by
  cases text with
  | nil => rfl
  | cons c text => rw [List.dropWhile_cons_of_neg (by simp [solid c List.mem_cons_self])]

theorem trimRight_eq_self (solid : ∀ c ∈ text, Text.isBlank c = false) :
    Text.trimRight text = text := by
  rw [Text.trimRight, dropWhile_isBlank, List.reverse_reverse]
  simpa using solid

theorem lineEnd_literal (literal : ∀ c ∈ text, Literal c) (length : Nat) :
    LineEnd.of .plain length (text ++ ['\n']) = .complete := by
  induction text generalizing length with
  | nil => rfl
  | cons c text ih =>
    obtain ⟨first, others⟩ := List.forall_mem_cons.mp literal
    rw [List.cons_append, LineEnd.of, next_plain first]
    exact ih others _

theorem dropLineEnd_append (literal : ∀ c ∈ text, Literal c) :
    dropLineEnd (text ++ ['\n']) = text := by
  have ending : ∀ rest, text.reverse ≠ '\r' :: rest := by
    intro rest same
    have mem : '\r' ∈ text.reverse := same ▸ List.mem_cons_self
    exact absurd (literal _ (List.mem_reverse.mp mem)).1 (by decide)
  rw [dropLineEnd, List.reverse_append, List.reverse_singleton, List.singleton_append]
  split
  · rename_i rest same
    exact absurd (List.cons.inj same).2 (ending rest)
  · rename_i rest _ same
    rw [← (List.cons.inj same).2, List.reverse_reverse]
  · rename_i absent
    exact absurd rfl (absent _)

/-- Lines of characters that stand for themselves are told apart at their ends. -/
theorem logicalLines_literal {lines : List (List Char)}
    (literal : ∀ line ∈ lines, ∀ c ∈ line, Literal c)
    (noComment : ∀ line ∈ lines, line.head? ≠ some '#') :
    logicalLines .plain [] (lines.map (· ++ ['\n'])) = lines.map some := by
  induction lines with
  | nil => rfl
  | cons line lines ih =>
    obtain ⟨first, others⟩ := List.forall_mem_cons.mp literal
    obtain ⟨begins, othersBegin⟩ := List.forall_mem_cons.mp noComment
    have notComment : ((line ++ ['\n']).dropWhile Text.isBlank).head? ≠ some '#' := by
      cases line with
      | nil => decide
      | cons c line =>
        have solid := (first c List.mem_cons_self).1
        rw [List.cons_append, List.dropWhile_cons_of_neg (by simp [solid])]
        exact begins
    rw [List.map_cons, logicalLines, List.nil_append, if_neg notComment, lineEnd_literal first]
    simp only [dropLineEnd_append first, ih others othersBegin, List.map_cons]

/-- The text of lines is split into them. -/
theorem physicalLines_flatMap {lines : List (List Char)} (single : ∀ line ∈ lines, '\n' ∉ line) :
    physicalLines (lines.flatMap (· ++ ['\n'])) = lines.map (· ++ ['\n']) := by
  have parts : Text.splitAll '\n' (lines.flatMap (· ++ ['\n'])) = lines ++ [[]] := by
    induction lines with
    | nil => rfl
    | cons line lines ih =>
      obtain ⟨first, others⟩ := List.forall_mem_cons.mp single
      rw [List.flatMap_cons, List.append_assoc, List.singleton_append,
        Text.splitAll_append_cons first, ih others, List.cons_append]
  simp [physicalLines, parts]

theorem literal_of_mem_lineOf (plain : Plain name value) :
    ∀ c ∈ lineOf (name, value), Literal c := by
  have sign : Literal '=' := ⟨by decide, by decide⟩
  rw [lineOf, List.forall_mem_append]
  constructor
  · intro c mem
    exact literal_of_isNameChar (plain.named c mem)
  · exact List.forall_mem_cons.mpr ⟨sign, plain.literal⟩

/-- The name of an assignment ends at the sign. -/
theorem readTarget?_lineOf (plain : Plain name value) :
    readTarget? (lineOf (name, value)) = some (name, value.toList) := by
  have taken : (lineOf (name, value)).takeWhile isNameChar = name.toList := by
    rw [lineOf, List.takeWhile_append_of_pos plain.named]
    exact List.append_nil _
  have left : (lineOf (name, value)).dropWhile isNameChar = '=' :: value.toList := by
    rw [lineOf, List.dropWhile_append_of_pos plain.named]
    rfl
  have read : readName? (lineOf (name, value)) = some (name, '=' :: value.toList) := by
    obtain ⟨c, first, letter⟩ := plain.begins
    obtain ⟨rest, split⟩ := List.head?_eq_some_iff.mp first
    have cons : lineOf (name, value) = c :: (rest ++ '=' :: value.toList) := by
      rw [lineOf, split]
      rfl
    rw [cons] at taken left ⊢
    rw [readName?, if_pos letter, taken, left, String.ofList_toList]
  rw [readTarget?, read]
  rfl

/-- The line of a plain assignment is no comment, and is not empty. -/
theorem head?_lineOf (plain : Plain name value) :
    ∃ c, (lineOf (name, value)).head? = some c ∧ isNameChar c = true := by
  obtain ⟨c, first, _⟩ := plain.begins
  obtain ⟨rest, split⟩ := List.head?_eq_some_iff.mp first
  refine ⟨c, ?_, plain.named c ?_⟩
  · rw [lineOf, split]
    rfl
  · rw [split]
    exact List.mem_cons_self

/-- The line of a plain assignment is read as the assignment. -/
theorem readLine_lineOf (plain : Plain name value) :
    readLine lookup (lineOf (name, value)) = some (some (name, value)) := by
  have literal := literal_of_mem_lineOf plain
  have solid : ∀ c ∈ lineOf (name, value), Text.isBlank c = false := by
    intro c mem
    exact (literal c mem).1
  have solidValue : ∀ c ∈ value.toList, Text.isBlank c = false := by
    intro c mem
    exact (plain.literal c mem).1
  have target := readTarget?_lineOf plain
  obtain ⟨c, first, named⟩ := head?_lineOf plain
  rw [readLine, trimRight_eq_self solid, skipBlanks, dropWhile_isBlank solid]
  split
  · rename_i empty
    rw [empty] at first
    exact nomatch first
  · rename_i comment
    rw [comment] at first
    obtain rfl := Option.some.inj first
    exact absurd named (by decide)
  · rw [target]
    simp only [Option.bind_eq_bind, Option.bind_some, skipBlanks, dropWhile_isBlank solidValue]
    split
    · rename_i empty
      rw [String.toList_eq_nil_iff.mp empty]
      rfl
    · rename_i comment
      exact absurd (by rw [comment]; rfl) plain.noComment
    · rw [readValue_literal plain.literal]
      simp

/-- The text of assignments, one on each line. -/
def textOf (assignments : List (String × String)) : String :=
  String.ofList (assignments.flatMap fun assignment => lineOf assignment ++ ['\n'])

theorem readLines_map_lineOf {assignments : List (String × String)}
    (plain : ∀ assignment ∈ assignments, Plain assignment.1 assignment.2)
    (environment : Environment) :
    readLines environment (assignments.map fun assignment => some (lineOf assignment)) =
      assignments.foldl (fun environment assignment =>
        environment.addNew assignment.1 assignment.2) environment := by
  induction assignments generalizing environment with
  | nil => rfl
  | cons assignment assignments ih =>
    obtain ⟨first, others⟩ := List.forall_mem_cons.mp plain
    rw [List.map_cons, readLines, readLine_lineOf first, List.foldl_cons]
    exact ih others _

/-- **A file of plain assignments adds them in turn**, each unless the variable has a value. -/
theorem read_textOf {assignments : List (String × String)}
    (plain : ∀ assignment ∈ assignments, Plain assignment.1 assignment.2)
    (environment : Environment) :
    read environment (textOf assignments) =
      assignments.foldl (fun environment assignment =>
        environment.addNew assignment.1 assignment.2) environment := by
  have literal : ∀ line ∈ assignments.map lineOf, ∀ c ∈ line, Literal c := by
    intro line mem
    obtain ⟨assignment, inside, rfl⟩ := List.mem_map.mp mem
    exact literal_of_mem_lineOf (plain assignment inside)
  have noComment : ∀ line ∈ assignments.map lineOf, line.head? ≠ some '#' := by
    intro line mem comment
    obtain ⟨assignment, inside, rfl⟩ := List.mem_map.mp mem
    obtain ⟨c, first, named⟩ := head?_lineOf (plain assignment inside)
    obtain rfl := Option.some.inj (first.symm.trans comment)
    exact absurd named (by decide)
  have single : ∀ line ∈ assignments.map lineOf, '\n' ∉ line := by
    intro line mem newline
    exact absurd (literal line mem _ newline).1 (by decide)
  have unmarked : ∀ rest, (assignments.map lineOf).flatMap (· ++ ['\n']) ≠ '\uFEFF' :: rest := by
    intro rest same
    cases assignments with
    | nil => exact nomatch same
    | cons assignment assignments =>
      obtain ⟨c, first, named⟩ := head?_lineOf (plain assignment List.mem_cons_self)
      have begins := congrArg List.head? same
      rw [List.map_cons, List.flatMap_cons, List.append_assoc, List.head?_append, first] at begins
      obtain rfl := Option.some.inj begins
      exact absurd named (by decide)
  have chars : (textOf assignments).toList =
      (assignments.map lineOf).flatMap (· ++ ['\n']) := by
    rw [textOf, String.toList_ofList, List.flatMap_map]
  unfold read
  rw [chars]
  split
  · rename_i rest same
    exact absurd same (unmarked rest)
  · dsimp only
    rw [physicalLines_flatMap single, logicalLines_literal literal noComment, List.map_map]
    exact readLines_map_lineOf plain environment

end Assignments

end DecisionCompiler
