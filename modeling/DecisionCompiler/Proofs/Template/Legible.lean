import DecisionCompiler.Proofs.Json.Strings
import DecisionCompiler.Proofs.Template.Actions

/-!
Templates that can be told apart by their texts.

A template is *legible* when its names hold no blanks, braces and parentheses, no function has the
name of an action of conditionals, its literals neither hold nor end in what opens an action, its
conditionals have branches, and its comparisons are with finite numbers. The text of a legible
condition can be split off in only one way from what stands behind it
(`Condition.render_append_inj`), and so can the text of a legible expression
(`Expr.Legible.splitsOff`): the first action of the text, with what stands before it, says which
kind of expression stands there. So different legible templates have different texts
(`Template.render_eq_render_iff`).
-/

namespace DecisionCompiler

/-! ### Legible templates -/

/-- The names of the operands are names, and the constants are finite. -/
inductive Condition.Legible : Condition → Prop where
  | truthy {operand : String} (named : Word operand.toList) : Legible (truthy operand)
  | compare (comparator : Comparator) {operand : String} (named : Word operand.toList)
      (value : Number.Finite) : Legible (compare comparator operand (.finite value))
  | both {left right : Condition} (onLeft : left.Legible) (onRight : right.Legible) :
      Legible (both left right)

/-- The function names that are taken by the actions of conditionals. -/
def reserved : List String :=
  ["if", "else", "end"]

/-- The expression can be told apart from every other one in front of what may follow it. -/
inductive Expr.Legible : Expr → Prop where
  | literal {text : String} (unopened : Unopened text.toList) : Legible (literal text)
  | call {function : String} {operands : List String} (named : Word function.toList)
      (free : function ∉ reserved) (operandsNamed : ∀ operand ∈ operands, Word operand.toList) :
      Legible (call function operands)
  | conditional {first : Condition × Expr} {branches : List (Condition × Expr)} {fallback : Expr}
      (conditions : ∀ branch ∈ first :: branches, branch.1.Legible)
      (inside : ∀ branch ∈ first :: branches, branch.2.Legible) (otherwise : fallback.Legible) :
      Legible (conditional (first :: branches) fallback)

/-- The operands of a call as they stand behind its function. -/
def operandsText (operands : List String) : List Char :=
  operands.flatMap fun operand => ' ' :: operandText operand

theorem head?_operandsText (operands : List String) :
    ∀ c ∈ (operandsText operands).head?, ¬NameChar c := by
  cases operands with
  | nil => exact nofun
  | cons operand operands => exact head?_blank _

theorem not_mem_call {function : String} {operands : List String} (named : Word function.toList)
    (operandsNamed : ∀ operand ∈ operands, Word operand.toList) :
    '}' ∉ function.toList ++ operandsText operands := by
  have brace : ¬NameChar '}' := by decide
  have apart : ∀ operand ∈ operands, '}' ∉ operand.toList := fun operand mem =>
    (operandsNamed operand mem).not_mem brace
  simpa [operandsText, operandText, named.not_mem brace] using apart

theorem firstWord_call {function : String} (named : Word function.toList)
    (operands : List String) :
    firstWord (function.toList ++ operandsText operands) = function.toList := by
  refine firstWord_append (named.not_mem (by decide)) ?_
  cases operands with
  | nil => exact nofun
  | cons operand operands => exact fun c head => (Option.some.inj head).symm

/-- The inside of a call says which function is called with which operands. -/
theorem call_inj {first second : String} {operands others : List String}
    (named : Word first.toList) (named' : Word second.toList)
    (operandsNamed : ∀ operand ∈ operands, Word operand.toList)
    (othersNamed : ∀ operand ∈ others, Word operand.toList)
    (same : first.toList ++ operandsText operands = second.toList ++ operandsText others) :
    first = second ∧ operands = others := by
  induction operands generalizing first second others with
  | nil =>
    obtain ⟨names, texts⟩ := named.append_inj named' (head?_operandsText _)
      (head?_operandsText _) same
    cases others with
    | nil => exact ⟨String.toList_inj.mp names, rfl⟩
    | cons other others => exact nomatch texts
  | cons operand operands ih =>
    obtain ⟨names, texts⟩ := named.append_inj named' (head?_operandsText _)
      (head?_operandsText _) same
    cases others with
    | nil => exact nomatch texts
    | cons other others =>
      obtain ⟨operandNamed, operandsNamed⟩ := List.forall_mem_cons.mp operandsNamed
      obtain ⟨otherNamed, othersNamed⟩ := List.forall_mem_cons.mp othersNamed
      obtain ⟨rfl, rfl⟩ := ih operandNamed otherNamed operandsNamed othersNamed
        (List.tail_eq_of_cons_eq (List.tail_eq_of_cons_eq texts))
      exact ⟨String.toList_inj.mp names, rfl⟩

/-! ### Conditions -/

namespace Condition

variable {first second : Condition} {rest rest' : List Char}

/-- The text goes on with what closes a condition. -/
def Closes (text : List Char) : Prop :=
  ∃ c rest, text = c :: rest ∧ (c = ')' ∨ c = '}')

theorem Closes.head? (closes : Closes rest) : ∀ c ∈ rest.head?, ¬NameChar c := by
  obtain ⟨c, rest, rfl, paren | brace⟩ := closes
  · intro d head
    obtain rfl : c = d := Option.some.inj head
    rw [paren]
    decide
  · intro d head
    obtain rfl : c = d := Option.some.inj head
    rw [brace]
    decide

theorem name_inj {first second : Comparator} (same : first.name.toList = second.name.toList) :
    first = second := by
  cases first <;> cases second <;> simp_all [Comparator.name]

/-- No condition has a brace in its text. -/
theorem Legible.not_mem_render (legible : first.Legible) : '}' ∉ first.render := by
  have brace : ¬NameChar '}' := by decide
  induction legible with
  | truthy named => simpa [render, operandText] using named.not_mem brace
  | compare comparator named value =>
    have texts :=
      And.intro ((word_name comparator).not_mem brace) ((word_plain value).not_mem brace)
    simpa [render, operandText, Number.plain, named.not_mem brace] using texts
  | both _ _ left right => simp [render, left, right]

theorem Legible.not_mem_opened (legible : first.Legible) {opening : List Char}
    (apart : '}' ∉ opening) : '}' ∉ opening ++ first.render := by
  rw [List.mem_append, not_or]
  exact ⟨apart, legible.not_mem_render⟩

/-- The text of a comparison begins with a letter. -/
theorem exists_render_compare (comparator : Comparator) (operand : String) (value : Number) :
    ∃ c text, (compare comparator operand value).render = c :: text ∧ c ≠ '.' ∧ c ≠ '(' := by
  cases comparator <;> exact ⟨_, _, rfl, by decide⟩

section Compare

variable {comparator other : Comparator} {operand operand' : String} {x y : Number.Finite}

theorem compare_append_inj (named : Word operand.toList) (named' : Word operand'.toList)
    (closes : Closes rest) (closes' : Closes rest')
    (same : (compare comparator operand (.finite x)).render ++ rest =
      (compare other operand' (.finite y)).render ++ rest') :
    (comparator = other ∧ operand = operand' ∧ x = y) ∧ rest = rest' := by
  simp only [render, Number.plain, operandText, List.append_assoc, List.cons_append] at same
  obtain ⟨names, behindName⟩ :=
    (word_name _).append_inj (word_name _) (head?_blank _) (head?_blank _) same
  obtain ⟨operands, behindOperand⟩ := named.append_inj named' (head?_blank _) (head?_blank _)
    (List.tail_eq_of_cons_eq (List.tail_eq_of_cons_eq behindName))
  obtain ⟨numbers, rests⟩ := (word_plain x).append_inj (word_plain y) closes.head? closes'.head?
    (List.tail_eq_of_cons_eq behindOperand)
  exact ⟨⟨name_inj names, String.toList_inj.mp operands, Number.plain_injective numbers⟩, rests⟩

end Compare

/-- **The text of a condition can be split off in only one way.** -/
theorem render_append_inj (legible : first.Legible) (other : second.Legible) (closes : Closes rest)
    (closes' : Closes rest') (same : first.render ++ rest = second.render ++ rest') :
    first = second ∧ rest = rest' := by
  induction legible generalizing second rest rest' with
  | truthy named =>
    cases other with
    | truthy named' =>
      obtain ⟨names, rests⟩ := named.append_inj named' closes.head? closes'.head?
        (List.tail_eq_of_cons_eq same)
      rw [String.toList_inj.mp names]
      exact ⟨rfl, rests⟩
    | compare comparator named' value =>
      obtain ⟨c, text, written, notPoint, _⟩ := exists_render_compare comparator _ (.finite value)
      rw [written] at same
      exact absurd (List.head_eq_of_cons_eq same).symm notPoint
    | both left right => exact nomatch same
  | compare comparator named value =>
    cases other with
    | truthy named' =>
      obtain ⟨c, text, written, notPoint, _⟩ := exists_render_compare comparator _ (.finite value)
      rw [written] at same
      exact absurd (List.head_eq_of_cons_eq same) notPoint
    | compare comparator' named' value' =>
      obtain ⟨⟨rfl, rfl, rfl⟩, rests⟩ := compare_append_inj named named' closes closes' same
      exact ⟨rfl, rests⟩
    | both left right =>
      obtain ⟨c, text, written, _, notParen⟩ := exists_render_compare comparator _ (.finite value)
      rw [written] at same
      exact absurd (List.head_eq_of_cons_eq same) notParen
  | both _ _ onLeft onRight =>
    cases other with
    | truthy named' => exact nomatch same
    | compare comparator named' value =>
      obtain ⟨c, text, written, _, notParen⟩ := exists_render_compare comparator _ (.finite value)
      rw [written] at same
      exact absurd (List.head_eq_of_cons_eq same).symm notParen
    | both left right =>
      simp only [render, List.append_assoc, List.cons_append, List.nil_append, List.cons.injEq,
        true_and] at same
      obtain ⟨rfl, behindLeft⟩ := onLeft left ⟨_, _, rfl, .inl rfl⟩ ⟨_, _, rfl, .inl rfl⟩ same
      simp only [List.cons.injEq, true_and] at behindLeft
      obtain ⟨rfl, behindRight⟩ :=
        onRight right ⟨_, _, rfl, .inl rfl⟩ ⟨_, _, rfl, .inl rfl⟩ behindLeft
      simp only [List.cons.injEq, true_and] at behindRight
      exact ⟨rfl, behindRight⟩

theorem render_inj (legible : first.Legible) (other : second.Legible)
    (same : first.render = second.render) : first = second := by
  have closes : Closes ['}'] := ⟨_, _, rfl, .inr rfl⟩
  exact (render_append_inj legible other closes closes (congrArg (· ++ ['}']) same)).1

end Condition

/-! ### Expressions -/

namespace Expr

/-- The first word of an action that goes on with a conditional or ends it. -/
def GoesOn (word : List Char) : Prop :=
  word = "else".toList ∨ word = "end".toList

/-- What can stand behind an expression: the end of the template, or an action that goes on with a
conditional or ends it. -/
inductive Follows : List Char → Prop where
  | close : Follows ['}']
  | action {inside : List Char} (apart : '}' ∉ inside) (word : GoesOn (firstWord inside))
      (rest : List Char) : Follows (action inside ++ rest)

/-- What stands behind the expression of a branch: the other branches, the fallback and the end of
the conditional. -/
def behindBranch (branches : List (Condition × Expr)) (fallback : Expr) (rest : List Char) :
    List Char :=
  renderBranches laterBranch branches ++
    (action "else".toList ++ (fallback.render ++ (action "end".toList ++ rest)))

section Branches

variable {branches : List (Condition × Expr)} {fallback : Expr}

theorem render_conditional (branch : Condition × Expr) (rest : List Char) :
    (conditional (branch :: branches) fallback).render ++ rest =
      action (firstBranch ++ branch.1.render) ++
        (branch.2.render ++ behindBranch branches fallback rest) := by
  simp [render, renderBranches, behindBranch]

theorem behindBranch_cons (branch : Condition × Expr) (rest : List Char) :
    behindBranch (branch :: branches) fallback rest =
      action (laterBranch ++ branch.1.render) ++
        (branch.2.render ++ behindBranch branches fallback rest) := by
  simp [renderBranches, behindBranch]

theorem follows_end (rest : List Char) : Follows (action "end".toList ++ rest) :=
  .action (by decide) (.inr rfl) rest

theorem follows_behindBranch (conditions : ∀ branch ∈ branches, branch.1.Legible)
    (rest : List Char) : Follows (behindBranch branches fallback rest) := by
  cases branches with
  | nil => exact .action (by decide) (.inl rfl) _
  | cons branch branches =>
    have legible := conditions branch List.mem_cons_self
    rw [behindBranch_cons]
    exact .action (legible.not_mem_opened (by decide)) (.inl rfl) _

end Branches

/-! ### Literals -/

section Literal

variable {text rest : List Char}

/-- In front of what may follow it, a literal is all that stands before the first action, if there
is one, and that action goes on with a conditional or ends it. -/
theorem firstAction?_literal (unopened : Unopened text) (follows : Follows rest) :
    firstAction? (text ++ rest) = none ∧ rest = ['}'] ∨
      ∃ inside behind, firstAction? (text ++ rest) = some (text, inside, behind) ∧
        rest = action inside ++ behind ∧ GoesOn (firstWord inside) := by
  cases follows with
  | close =>
    have apart : ¬['{', '{'] <:+: text ++ ['}'] := by
      rw [List.infix_concat_iff, List.suffix_concat_iff]
      rintro ((empty | ⟨init, split, _⟩) | inside)
      · exact nomatch empty
      · have last := congrArg List.getLast? split
        rw [List.getLast?_concat] at last
        exact absurd last (by decide)
      · exact unopened.inside inside
    exact .inl ⟨firstAction?_eq_none apart, rfl⟩
  | @action inside apart word behind =>
    exact .inr ⟨inside, behind, firstAction?_append unopened apart, rfl, word⟩

theorem literal_append_inj {other rest' : List Char} (unopened : Unopened text)
    (unopened' : Unopened other) (follows : Follows rest) (follows' : Follows rest')
    (same : text ++ rest = other ++ rest') : text = other ∧ rest = rest' := by
  have found := firstAction?_literal unopened follows
  have found' := firstAction?_literal unopened' follows'
  rw [same] at found
  rcases found with ⟨missing, rfl⟩ | ⟨inside, behind, first, rfl, _⟩
  · rcases found' with ⟨_, rfl⟩ | ⟨_, _, first', _⟩
    · exact ⟨List.append_cancel_right same, rfl⟩
    · exact nomatch missing.symm.trans first'
  · rcases found' with ⟨missing', _⟩ | ⟨inside', behind', first', rfl, _⟩
    · exact nomatch missing'.symm.trans first
    · obtain ⟨rfl, rfl, rfl⟩ : text = other ∧ inside = inside' ∧ behind = behind' := by
        simpa using first.symm.trans first'
      exact ⟨rfl, rfl⟩

/-- A text that begins with a literal and an action both has an action of conditionals first. -/
theorem goesOn_of_literal {inside behind : List Char} (unopened : Unopened text)
    (follows : Follows rest) (apart : '}' ∉ inside)
    (same : text ++ rest = action inside ++ behind) : GoesOn (firstWord inside) := by
  have found : firstAction? (action inside ++ behind) = some ([], inside, behind) :=
    firstAction?_append unopened_nil apart
  rw [← same] at found
  rcases firstAction?_literal unopened follows with ⟨missing, _⟩ | ⟨inside', _, first, _, word⟩
  · exact nomatch missing.symm.trans found
  · obtain ⟨_, rfl, _⟩ := by simpa using first.symm.trans found
    exact word

theorem not_goesOn_call {function : String} {operands : List String}
    (named : Word function.toList) (free : function ∉ reserved) :
    ¬GoesOn (firstWord (function.toList ++ operandsText operands)) := by
  rw [GoesOn, firstWord_call named, String.toList_inj, String.toList_inj]
  rintro (rfl | rfl) <;> exact absurd (by decide) free

theorem not_goesOn_firstBranch (text : List Char) : ¬GoesOn (firstWord (firstBranch ++ text)) := by
  rintro (word | word) <;> exact nomatch word

end Literal

/-! ### Any expression -/

/-- The inside of a call is not that of the action of a first branch. -/
theorem call_ne_firstBranch {function : String} (named : Word function.toList)
    (free : function ∉ reserved) (operands : List String) (text : List Char) :
    function.toList ++ operandsText operands ≠ firstBranch ++ text := by
  intro same
  have word := firstWord_call named operands
  rw [same] at word
  obtain rfl : "if" = function := String.toList_inj.mp word
  exact absurd (by decide) free

/-- The text of the expression can be split off in only one way from what may follow it. -/
def SplitsOff (first : Expr) : Prop :=
  ∀ ⦃second : Expr⦄ ⦃rest rest' : List Char⦄, second.Legible → Follows rest → Follows rest' →
    first.render ++ rest = second.render ++ rest' → first = second ∧ rest = rest'

theorem splitsOff_literal {text : String} (unopened : Unopened text.toList) :
    SplitsOff (literal text) := by
  intro second rest rest' legible follows follows' same
  cases legible with
  | literal unopened' =>
    obtain ⟨texts, rests⟩ := literal_append_inj unopened unopened' follows follows' same
    rw [String.toList_inj.mp texts]
    exact ⟨rfl, rests⟩
  | call named free operandsNamed =>
    have word := goesOn_of_literal unopened follows (not_mem_call named operandsNamed) same
    exact absurd word (not_goesOn_call named free)
  | @conditional branch _ _ conditions _ _ =>
    have legible := conditions branch List.mem_cons_self
    rw [render_conditional] at same
    have word := goesOn_of_literal unopened follows (legible.not_mem_opened (by decide)) same
    exact absurd word (not_goesOn_firstBranch _)

theorem splitsOff_call {function : String} {operands : List String}
    (named : Word function.toList) (free : function ∉ reserved)
    (operandsNamed : ∀ operand ∈ operands, Word operand.toList) :
    SplitsOff (call function operands) := by
  intro second rest rest' legible follows follows' same
  have apart := not_mem_call named operandsNamed
  cases legible with
  | literal unopened =>
    have word := goesOn_of_literal unopened follows' apart same.symm
    exact absurd word (not_goesOn_call named free)
  | call named' free' operandsNamed' =>
    obtain ⟨insides, rests⟩ :=
      action_append_inj apart (not_mem_call named' operandsNamed') same
    obtain ⟨rfl, rfl⟩ := call_inj named named' operandsNamed operandsNamed' insides
    exact ⟨rfl, rests⟩
  | @conditional branch _ _ conditions _ _ =>
    have legible := conditions branch List.mem_cons_self
    rw [render_conditional] at same
    obtain ⟨insides, _⟩ := action_append_inj apart (legible.not_mem_opened (by decide)) same
    exact absurd insides (call_ne_firstBranch named free operands _)

/-- A branch can be split off in only one way from what stands behind it. -/
theorem branch_append_inj {branch other : Condition × Expr} {opening behind behind' : List Char}
    (apart : '}' ∉ opening) (legible : branch.1.Legible) (legible' : other.1.Legible)
    (splitsOff : SplitsOff branch.2) (inside' : other.2.Legible) (follows : Follows behind)
    (follows' : Follows behind')
    (same : action (opening ++ branch.1.render) ++ (branch.2.render ++ behind) =
      action (opening ++ other.1.render) ++ (other.2.render ++ behind')) :
    branch = other ∧ behind = behind' := by
  obtain ⟨insides, exprs⟩ :=
    action_append_inj (legible.not_mem_opened apart) (legible'.not_mem_opened apart) same
  have condition := Condition.render_inj legible legible' (List.append_cancel_left insides)
  obtain ⟨expr, behinds⟩ := splitsOff inside' follows follows' exprs
  exact ⟨Prod.ext condition expr, behinds⟩

/-- Branches whose expressions split off can be told apart in front of their fallback. -/
theorem behindBranch_inj {branches others : List (Condition × Expr)} {fallback otherwise : Expr}
    {rest rest' : List Char} (conditions : ∀ branch ∈ branches, branch.1.Legible)
    (splitOff : ∀ branch ∈ branches, SplitsOff branch.2) (fallbackOff : SplitsOff fallback)
    (conditions' : ∀ branch ∈ others, branch.1.Legible)
    (inside' : ∀ branch ∈ others, branch.2.Legible) (otherwise' : otherwise.Legible)
    (same : behindBranch branches fallback rest = behindBranch others otherwise rest') :
    branches = others ∧ fallback = otherwise ∧ rest = rest' := by
  have last : '}' ∉ "else".toList := by decide
  have later : '}' ∉ laterBranch := by decide
  induction branches generalizing others with
  | nil =>
    cases others with
    | nil =>
      obtain ⟨_, behind⟩ := action_append_inj last last same
      obtain ⟨rfl, ends⟩ := fallbackOff otherwise' (follows_end rest) (follows_end rest') behind
      exact ⟨rfl, rfl, List.append_cancel_left ends⟩
    | cons other others =>
      have legible := conditions' other List.mem_cons_self
      rw [behindBranch_cons] at same
      obtain ⟨insides, _⟩ := action_append_inj last (legible.not_mem_opened later) same
      exact nomatch insides
  | cons branch branches ih =>
    have legible := conditions branch List.mem_cons_self
    rw [behindBranch_cons] at same
    cases others with
    | nil =>
      obtain ⟨insides, _⟩ := action_append_inj (legible.not_mem_opened later) last same
      exact nomatch insides
    | cons other others =>
      rw [behindBranch_cons] at same
      obtain ⟨_, behindConditions⟩ := List.forall_mem_cons.mp conditions
      obtain ⟨splitsOff, behindSplitOff⟩ := List.forall_mem_cons.mp splitOff
      obtain ⟨legible', behindConditions'⟩ := List.forall_mem_cons.mp conditions'
      obtain ⟨branchInside', behindInside'⟩ := List.forall_mem_cons.mp inside'
      obtain ⟨branches, behinds⟩ := branch_append_inj later legible legible' splitsOff branchInside'
        (follows_behindBranch behindConditions rest)
        (follows_behindBranch behindConditions' rest') same
      obtain ⟨rfl, rfl, rests⟩ :=
        ih behindConditions behindSplitOff behindConditions' behindInside' behinds
      exact ⟨by rw [branches], rfl, rests⟩

/-- **The text of an expression can be split off in only one way.** -/
theorem Legible.splitsOff {first : Expr} (legible : first.Legible) : SplitsOff first := by
  have opening : '}' ∉ firstBranch := by decide
  induction legible with
  | literal unopened => exact splitsOff_literal unopened
  | call named free operandsNamed => exact splitsOff_call named free operandsNamed
  | @conditional branch branches fallback conditions _ _ splitOff fallbackOff =>
    intro second rest rest' legible follows follows' same
    obtain ⟨condition, behindConditions⟩ := List.forall_mem_cons.mp conditions
    obtain ⟨splitsOff, behindSplitOff⟩ := List.forall_mem_cons.mp splitOff
    have apart := condition.not_mem_opened opening
    rw [render_conditional] at same
    cases legible with
    | literal unopened =>
      have word := goesOn_of_literal unopened follows' apart same.symm
      exact absurd word (not_goesOn_firstBranch _)
    | @call _ operands named free operandsNamed =>
      obtain ⟨insides, _⟩ := action_append_inj apart (not_mem_call named operandsNamed) same
      exact absurd insides.symm (call_ne_firstBranch named free operands _)
    | conditional conditions' inside' otherwise' =>
      obtain ⟨condition', behindConditions'⟩ := List.forall_mem_cons.mp conditions'
      obtain ⟨branchInside', behindInside'⟩ := List.forall_mem_cons.mp inside'
      rw [render_conditional] at same
      obtain ⟨branches, behinds⟩ := branch_append_inj opening condition condition' splitsOff
        branchInside' (follows_behindBranch behindConditions rest)
        (follows_behindBranch behindConditions' rest') same
      obtain ⟨rfl, rfl, rests⟩ := behindBranch_inj behindConditions behindSplitOff fallbackOff
        behindConditions' behindInside' otherwise' behinds
      exact ⟨by rw [branches], rests⟩

end Expr

/-! ### Templates -/

namespace Template

/-- **Different templates have different texts.** Two templates whose expressions are legible have
the same text exactly if they bind the same field to the same expression. -/
theorem render_eq_render_iff {first second : Template} (legible : first.body.Legible)
    (legible' : second.body.Legible) : first.render = second.render ↔ first = second := by
  constructor
  · intro same
    obtain ⟨key, body⟩ := first
    obtain ⟨key', body'⟩ := second
    have behindBrace := List.tail_eq_of_cons_eq same
    simp only [List.append_assoc, List.cons_append] at behindBrace
    obtain ⟨rfl, behindKey⟩ := Json.quoted_append_inj behindBrace
    obtain ⟨rfl, _⟩ :=
      legible.splitsOff legible' .close .close (List.tail_eq_of_cons_eq behindKey)
    rfl
  · rintro rfl
    rfl

/-- Two templates that differ in nothing but the sign of a zero inside a condition. -/
theorem render_ne_by_sign_of_zero :
    let body (negative : Bool) : Expr :=
      .conditional
        [(.both (.truthy "member") (.compare .less "age" (.finite (.zero negative))),
          .conditional [(.truthy "vip", .call "else_rate" ["age"])] (.literal "\x7d\x7d"))]
        (.literal "")
    (body false).Legible ∧ (body true).Legible ∧
      (Template.mk "rate" (body false)).render ≠ (Template.mk "rate" (body true)).render := by
  intro body
  have legible (negative : Bool) : (body negative).Legible := by
    have nested : (Expr.conditional [(.truthy "vip", .call "else_rate" ["age"])]
        (.literal "\x7d\x7d")).Legible := by
      refine .conditional ?_ ?_ (.literal ⟨by decide, by decide⟩)
      · exact List.forall_mem_singleton.mpr (.truthy (by decide))
      · exact List.forall_mem_singleton.mpr (.call (by decide) (by decide) (by decide))
    refine .conditional ?_ (List.forall_mem_singleton.mpr nested) (.literal ⟨by decide, by decide⟩)
    exact List.forall_mem_singleton.mpr (.both (.truthy (by decide)) (.compare _ (by decide) _))
  refine ⟨legible false, legible true, fun same => ?_⟩
  have bodies := (render_eq_render_iff (legible false) (legible true)).mp same
  simp [body, Number.Finite.zero] at bodies

/-- A literal that holds an action is not legible: it has the text of a call. -/
example : (mk "now" (.literal "\x7b\x7btoday\x7d\x7d")).render =
    (mk "now" (.call "today" [])).render := by
  decide

end Template

end DecisionCompiler
