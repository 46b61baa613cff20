import DecisionCompiler.Proofs.Json.Verbatim
import DecisionCompiler.Proofs.Rule.ThresholdLookup

/-!
What a lookup of a string field puts into a document.

A lookup compiles to a chain of literals, one for each value that it offers, and whatever the
operands are, the chain comes down to one of them (`Compiler.exists_alternatives`). In the template
of a string field the key is escaped, but a string value stands between bare quotes. Its literal
reads as the string, and the template that comes down to it as an object that binds the key to the
string, exactly when nothing in the string has to be escaped (`stringLookup_binds_iff`). A string
with a quote in it can close its literal and add members of its own to the object
(`stringLookup_adds_member`).

All of this is about the expression that is evaluated, which knows where its literals begin and end.
Its text does not: a string with an action in it, such as one that opens another branch, has nothing
to escape and yet changes what the text means. Literals without actions are what `Expr.Legible` asks
for.
-/

namespace DecisionCompiler

/-! ### The values of a lookup -/

/-- Rules of the kind select among literals. -/
def RuleKind.IsLookup : RuleKind → Prop
  | intervalMap | boolMap | thresholdMap => True
  | func | unknown _ => False

/-- The rule selects the value for some operands. A truth value without a literal gives null. -/
def RuleSpec.Offers : RuleSpec → Value → Prop
  | range _ literals, value | threshold _ literals, value =>
    ∃ label, literals.get? label = some value
  | bool _ onTrue onFalse, value => value = onTrue.getD .null ∨ value = onFalse.getD .null
  | call .., _ | unknown _, _ => False

/-! ### The alternatives of an expression -/

namespace Expr

/-- The expressions that one condition after the other selects. -/
def alternatives : Expr → List Expr
  | conditional branches fallback => fallback :: branches.map Prod.snd
  | expr => [expr]

variable {values : Operands} {branches : List (Condition × Expr)} {fallback expr : Expr}

/-- An expression comes down to what one of its alternatives comes down to. -/
theorem exists_chosen_alternative (values : Operands) (expr : Expr) :
    ∃ alternative ∈ expr.alternatives, expr.chosen values = alternative.chosen values := by
  cases expr with
  | literal text => exact ⟨_, List.mem_singleton_self _, rfl⟩
  | call function operands => exact ⟨_, List.mem_singleton_self _, rfl⟩
  | conditional branches fallback =>
    rw [chosen, chosenBranch_eq_find?]
    cases found : branches.find? fun branch => branch.1.Holds values with
    | none => exact ⟨fallback, List.mem_cons_self, rfl⟩
    | some branch =>
      have mem := List.mem_map_of_mem (f := Prod.snd) (List.mem_of_find?_eq_some found)
      exact ⟨branch.2, List.mem_cons_of_mem _ mem, rfl⟩

/-- The alternatives are the literals of the values that a rule offers. -/
def OffersOf (type : ValueType) (spec : RuleSpec) (expr : Expr) : Prop :=
  (∀ value, spec.Offers value → ofValue type value ∈ expr.alternatives) ∧
    ∀ alternative ∈ expr.alternatives, ∃ value, spec.Offers value ∧ alternative = ofValue type value

section Literals

variable {type : ValueType} {operand : String} {literals : Payload} {partition : Partition}
  {threshold : Threshold}

theorem mem_labels_of_get? {label : String} {value : Value}
    (found : literals.get? label = some value) : label ∈ literals.labels :=
  List.mem_map_of_mem (f := Prod.fst) ((Entries.get?_eq_some_iff literals.ascending).mp found)

/-- The literals of all labels are those of all values that are filed. -/
theorem offers_of_labels {labels : List String} {alternatives : List Expr}
    (filed : List.Forall₂ (IsLiteralOf type literals) labels alternatives)
    (perm : labels.Perm literals.labels) :
    (∀ value, (∃ label, literals.get? label = some value) → ofValue type value ∈ alternatives) ∧
      ∀ alternative ∈ alternatives, ∃ value,
        (∃ label, literals.get? label = some value) ∧ alternative = ofValue type value := by
  constructor
  · rintro value ⟨label, found⟩
    have mem := perm.mem_iff.mpr (mem_labels_of_get? found)
    obtain ⟨alternative, mem, value', found', rfl⟩ := Outcome.exists_of_forall₂ filed mem
    obtain rfl := Option.some.inj (found.symm.trans found')
    exact mem
  · intro alternative mem
    obtain ⟨label, _, value, found, rfl⟩ := Outcome.exists_of_forall₂ filed.flip mem
    exact ⟨value, ⟨label, found⟩, rfl⟩

theorem labels_perm_of_ofLabels {labels : List String}
    (accepted : Partition.ofLabels labels = .ok partition) :
    (partition.intervals.map Interval.label).Perm labels := by
  obtain ⟨intervals, read, _, perm⟩ := Partition.walk_of_ofLabels accepted
  rw [← read.labels_eq]
  exact perm.map Interval.label

theorem offersOf_of_ofRange {expr : Expr} (made : ofRange type operand literals = .ok expr) :
    OffersOf type (.range operand literals) expr := by
  obtain ⟨partition, accepted, _⟩ := Outcome.bind_eq_ok_iff.mp made
  obtain ⟨branches, fallback, made', parts, top⟩ := ofRange_eq_ok type operand accepted
  obtain rfl := Except.ok.inj (made.symm.trans made')
  have cells : List.Forall₂ (IsLiteralOf type literals)
      (partition.cells.map fun cell => cell.interval.label) (branches.map Prod.snd) := by
    rw [List.forall₂_map_left_iff, List.forall₂_map_right_iff]
    exact parts.imp fun _ _ part => part.2
  refine offers_of_labels (.cons top cells) ?_
  have perm := labels_perm_of_ofLabels accepted
  rw [Partition.intervals, List.map_append, List.map_map] at perm
  exact (List.perm_append_singleton _ _).symm.trans perm

theorem offersOf_of_ofThreshold {expr : Expr}
    (made : ofThreshold type operand literals = .ok expr) :
    OffersOf type (.threshold operand literals) expr := by
  obtain ⟨threshold, accepted, _⟩ := Outcome.bind_eq_ok_iff.mp made
  obtain ⟨onUpper, onLower, made', upper, lower⟩ := ofThreshold_eq_ok type operand accepted
  obtain rfl := Except.ok.inj (made.symm.trans made')
  have perm := (Threshold.ofLabels_eq_ok_iff.mp accepted).1
  exact offers_of_labels (.cons lower (.cons upper .nil)) ((List.Perm.swap _ _ _).trans perm.symm)

theorem offersOf_ofBool (onTrue onFalse : Option Value) :
    OffersOf type (.bool operand onTrue onFalse) (ofBool type operand onTrue onFalse) := by
  constructor
  · rintro value (rfl | rfl)
    · exact List.mem_cons_of_mem _ (List.mem_singleton_self _)
    · exact List.mem_cons_self
  · intro alternative mem
    rcases List.mem_cons.mp mem with rfl | mem
    · exact ⟨_, .inr rfl, rfl⟩
    · obtain rfl := List.mem_singleton.mp mem
      exact ⟨_, .inl rfl, rfl⟩

end Literals

end Expr

/-! ### The document of a string field -/

/-- The literal of a string in a string field is the string between bare quotes. -/
theorem ValueType.literal_string (s : String) :
    ValueType.string.literal (.string s) = String.ofList (Json.enclosed s) := by
  apply String.toList_inj.mp
  simp [ValueType.literal, Value.display, Json.enclosed]

/-- The text of a template whose expression is a string between bare quotes. -/
theorem Template.render_string (field s : String) :
    (Template.mk field (.ofValue .string (.string s))).render = Json.binding field s := by
  rw [Template.render, Expr.ofValue, Expr.render, ValueType.literal_string, String.toList_ofList,
    Json.binding, List.append_assoc, List.cons_append]

namespace Compiler

variable {compiler : Compiler} {field : String} {type : ValueType} {spec : RuleSpec}
  {expression : Expression}

/-- A lookup compiles to the template of an expression whose alternatives are the literals of the
values that the lookup offers. -/
theorem exists_alternatives (lookup : spec.kind.IsLookup)
    (compiled : compiler.compileSpec field type spec = .ok expression) :
    ∃ expr, expression = ⟨String.ofList (Template.mk field expr).render⟩ ∧
      expr.OffersOf type spec := by
  cases spec with
  | range operand literals =>
    rw [compileSpec_range] at compiled
    obtain ⟨expr, made, rfl⟩ := Outcome.map_eq_ok_iff.mp compiled
    exact ⟨expr, rfl, Expr.offersOf_of_ofRange made⟩
  | bool operand onTrue onFalse =>
    have known : ∀ kind, RuleSpec.bool operand onTrue onFalse ≠ .unknown kind := nofun
    have made : Expr.ofSpec type (.bool operand onTrue onFalse) =
        (Except.ok (Expr.ofBool type operand onTrue onFalse)).map some := rfl
    rw [compileSpec_eq_map compiler field known made] at compiled
    obtain rfl := Except.ok.inj compiled
    exact ⟨_, rfl, Expr.offersOf_ofBool onTrue onFalse⟩
  | threshold operand literals =>
    rw [compileSpec_threshold] at compiled
    obtain ⟨expr, made, rfl⟩ := Outcome.map_eq_ok_iff.mp compiled
    exact ⟨expr, rfl, Expr.offersOf_of_ofThreshold made⟩
  | call | unknown => exact lookup.elim

/-- **A string field binds its key to a string exactly when the string is verbatim.** A lookup of a
string field compiles to a template in which each string that it offers has its literal; the
literal reads as the string exactly when nothing in the string has to be escaped. Whatever the
operands are, the expression comes down to the literal of a value that the lookup offers; where
this is a string, the text of the template with that literal alone reads as an object with the key
of the field bound to the string, exactly when the string is verbatim. -/
theorem stringLookup_binds_iff (lookup : spec.kind.IsLookup)
    (compiled : compiler.compileSpec field .string spec = .ok expression) :
    ∃ expr, expression = ⟨String.ofList (Template.mk field expr).render⟩ ∧
      (∀ s, spec.Offers (.string s) →
        .literal (ValueType.string.literal (.string s)) ∈ expr.alternatives ∧
        (Json.parse (ValueType.string.literal (.string s)) = .ok (.string s) ↔
          Json.Verbatim s.toList)) ∧
      ∀ values : Operands, ∃ value, spec.Offers value ∧
        expr.chosen values = .literal (ValueType.string.literal value) ∧
        ∀ s, value = .string s →
          (Json.parse (String.ofList (Template.mk field (expr.chosen values)).render) =
            .ok (.object [(field, .string s)]) ↔ Json.Verbatim s.toList) := by
  obtain ⟨expr, rfl, offered, selected⟩ := exists_alternatives lookup compiled
  refine ⟨expr, rfl, fun s offers => ⟨offered _ offers, ?_⟩, fun values => ?_⟩
  · rw [ValueType.literal_string]
    exact Json.parse_enclosed_iff
  · obtain ⟨alternative, mem, chosen⟩ := Expr.exists_chosen_alternative values expr
    obtain ⟨value, offers, rfl⟩ := selected alternative mem
    have literal : expr.chosen values = .ofValue .string value := chosen
    refine ⟨value, offers, literal, ?_⟩
    rintro s rfl
    rw [literal, Template.render_string]
    exact Json.parse_binding_iff

/-- The key has quotes in it and is escaped; the values have none and stand as they are. -/
theorem stringLookup_binds_iff_quoted_key :
    let key := "the \"grade\""
    let grades := Payload.ofEntries [("(...10)", .string "größer"), ("[1e1...)", .string "больше")]
    ∃ expr, compileSpec {} key .string (.range "score" grades) =
        .ok ⟨String.ofList (Template.mk key expr).render⟩ ∧
      ∀ values : Operands, ∃ s ∈ ["größer", "больше"],
        Json.parse (String.ofList (Template.mk key (expr.chosen values)).render) =
          .ok (.object [(key, .string s)]) := by
  intro key grades
  have succeeds :
      (compileSpec {} key .string (.range "score" grades)).toOption.isSome = true := by
    decide +kernel
  obtain ⟨expression, compiled⟩ := Outcome.exists_eq_ok_of_isSome succeeds
  have lookup : (RuleSpec.range "score" grades).kind.IsLookup := trivial
  obtain ⟨expr, rfl, _, binds⟩ := stringLookup_binds_iff lookup compiled
  refine ⟨expr, compiled, fun values => ?_⟩
  obtain ⟨value, ⟨label, found⟩, _, reads⟩ := binds values
  have filed : value = .string "größer" ∨ value = .string "больше" := by
    have mem := (Entries.get?_eq_some_iff grades.ascending).mp found
    have entries : grades.entries =
        [("(...10)", .string "größer"), ("[1e1...)", .string "больше")] := by rfl
    rw [entries] at mem
    simp only [List.mem_cons, Prod.mk.injEq, List.not_mem_nil, or_false] at mem
    exact mem.imp And.right And.right
  rcases filed with rfl | rfl
  · exact ⟨_, by simp, (reads _ rfl).mpr (by decide)⟩
  · exact ⟨_, by simp, (reads _ rfl).mpr (by decide)⟩

/-- A string with quotes in it closes its literal and adds a member to the object. -/
theorem stringLookup_adds_member :
    let name := "no\",\"admin\":\"yes"
    let expr := Expr.ofBool .string "member" (some (.string name)) none
    compileSpec {} "guest" .string (.bool "member" (some (.string name)) none) =
        .ok ⟨String.ofList (Template.mk "guest" expr).render⟩ ∧
      Json.parse (ValueType.string.literal (.string name)) ≠ .ok (.string name) ∧
      ∀ values : Operands, values.truth "member" = true →
        Json.parse (String.ofList (Template.mk "guest" (expr.chosen values)).render) =
          .ok (.object [("guest", .string "no"), ("admin", .string "yes")]) := by
  intro name expr
  refine ⟨rfl, ?_, fun values member => ?_⟩
  · rw [ValueType.literal_string, ne_eq, Json.parse_enclosed_iff]
    decide
  · have chosen : expr.chosen values = .ofValue .string (.string name) := by
      simp [expr, Expr.ofBool, Expr.chosen, Expr.chosenBranch, Condition.Holds, member,
        Expr.ofValue]
    have printed : Json.binding "guest" name =
        Json.print .compact 0 (.object [("guest", .string "no"), ("admin", .string "yes")]) := by
      decide
    rw [chosen, Template.render_string, printed]
    exact Json.parse_print Json.Style.compact_lawful
      (.object (by simpa using ⟨.string _, .string _⟩))

end Compiler

end DecisionCompiler
