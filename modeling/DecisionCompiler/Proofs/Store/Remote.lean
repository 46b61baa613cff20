import DecisionCompiler.Proofs.Decision.Document
import DecisionCompiler.Proofs.Http.Status
import DecisionCompiler.Proofs.Json.Filing
import DecisionCompiler.Proofs.Service.Batch
import DecisionCompiler.Store.Remote
import Mathlib.Data.List.TakeWhile

/-!
What a remote store is sent and what its answers come to.

A request carries one decision, and the store can read it back (`WriteRequest.Carries`). An answer
other than `201` ends the batch with an error that depends on this answer alone; `StoreReply.Tells`
says in which words. A batch ends in one of three ways: every decision is written,
a decision cannot be compiled, or an answer is not `201` (`Exchange.Ends`). Where it ends decides
which requests were sent and what is returned, so that both can be told position by position
(`compileBatch_converses`).
-/

namespace DecisionCompiler

/-! ### Members of a document -/

theorem Json.member?_eq_some_iff {name : String} {json value : Json} :
    json.member? name = some value ↔ ∃ before after,
      json = .object (before ++ (name, value) :: after) ∧ name ∉ after.map Prod.fst := by
  cases json with
  | object members =>
    rw [member?, Entries.lookup_reverse_eq_some_iff]
    simp only [object.injEq]
  | null | bool _ | number _ | string _ | array _ => simp [member?]

theorem Json.member?_eq_none_iff {name : String} {json : Json} :
    json.member? name = none ↔
      ∀ members, json = .object members → name ∉ members.map Prod.fst := by
  cases json with
  | object members =>
    rw [member?, Entries.lookup_reverse_eq_none_iff]
    simp only [object.injEq, forall_eq']
  | null | bool _ | number _ | string _ | array _ => simp [member?]

/-! ### Answers -/

namespace StoreReply

/-- What an answer other than `201` tells. -/
inductive Tells (wording : Json.Wording) (reply : StoreReply) : String → Prop where
  /-- What arrives is no JSON, for the reason that its reader gives. -/
  | unreadable {why : Json.Rejection} (unread : Json.parse reply.content = .error why) :
      Tells wording reply
        ("Failed to decode document store response: " ++ wording reply.content why)
  /-- An object whose entry `error` is a string; of a repeated entry the last one counts. -/
  | said {before after : List (String × Json)} {words line : String}
      (read : Json.parse reply.content =
        .ok (.object (before ++ ("error", .string words) :: after)))
      (last : "error" ∉ after.map Prod.fst) (states : Http.States reply.status line) :
      Tells wording reply ("http " ++ line ++ " from document store - " ++ words)
  /-- An object whose entry `error` is anything else, told as the text of its filed form. -/
  | stated {before after : List (String × Json)} {entry filed : Json} {line : String}
      (read : Json.parse reply.content = .ok (.object (before ++ ("error", entry) :: after)))
      (last : "error" ∉ after.map Prod.fst) (noString : ∀ words, entry ≠ .string words)
      (filedAs : entry.FiledAs filed) (states : Http.States reply.status line) :
      Tells wording reply ("http " ++ line ++ " from document store - " ++ filed.compact)
  /-- No object, or one without that entry. -/
  | silent {json : Json} (read : Json.parse reply.content = .ok json)
      (without : ∀ members, json = .object members → "error" ∉ members.map Prod.fst) :
      Tells wording reply
        ("document store returned http status code " ++ toString reply.status
          ++ " with no error description")

section Outcome

variable {wording : Json.Wording} {reply : StoreReply} {e : RepositoryError} {words : String}

theorem outcome_eq_ok_iff : reply.outcome wording = .ok () ↔ reply.status = 201 := by
  unfold outcome
  split
  · rename_i created
    simp [created]
  · rename_i other
    simp [other]

theorem describe_of_ne {json : Json} (noString : ∀ words, json ≠ .string words) :
    describe json = json.filed.compact := by
  cases json with
  | string words => exact absurd rfl (noString words)
  | null | bool _ | number _ | array _ | object _ => rfl

theorem rejection_of_unread {why : Json.Rejection}
    (unread : Json.parse reply.content = .error why) :
    reply.rejection wording =
      "Failed to decode document store response: " ++ wording reply.content why := by
  unfold rejection
  rw [unread]
  rfl

theorem rejection_of_entry {json entry : Json} (read : Json.parse reply.content = .ok json)
    (found : json.member? "error" = some entry) :
    reply.rejection wording =
      "http " ++ Http.statusLine reply.status ++ " from document store - " ++ describe entry := by
  unfold rejection
  rw [read]
  dsimp only
  rw [found]
  rfl

theorem rejection_of_silent {json : Json} (read : Json.parse reply.content = .ok json)
    (absent : json.member? "error" = none) :
    reply.rejection wording =
      "document store returned http status code " ++ toString reply.status
        ++ " with no error description" := by
  unfold rejection
  rw [read]
  dsimp only
  rw [absent]
  rfl

/-- An answer tells one thing. -/
theorem tells_iff : reply.Tells wording words ↔ words = reply.rejection wording := by
  constructor
  · rintro (unread | ⟨read, last, states⟩ | ⟨read, last, noString, filedAs, states⟩ |
      ⟨read, without⟩)
    · rw [rejection_of_unread unread]
    · rw [rejection_of_entry read (Json.member?_eq_some_iff.mpr ⟨_, _, rfl, last⟩),
        Http.states_iff.mp states, describe]
    · rw [rejection_of_entry read (Json.member?_eq_some_iff.mpr ⟨_, _, rfl, last⟩),
        Http.states_iff.mp states, describe_of_ne noString, Json.filedAs_iff.mp filedAs]
    · rw [rejection_of_silent read (Json.member?_eq_none_iff.mpr without)]
  · rintro rfl
    cases read : Json.parse reply.content with
    | error why =>
      rw [rejection_of_unread read]
      exact .unreadable read
    | ok json =>
      cases found : json.member? "error" with
      | none =>
        rw [rejection_of_silent read found]
        exact .silent read (Json.member?_eq_none_iff.mp found)
      | some entry =>
        have states : Http.States reply.status (Http.statusLine reply.status) :=
          Http.states_iff.mpr rfl
        rw [rejection_of_entry read found]
        obtain ⟨before, after, rfl, last⟩ := Json.member?_eq_some_iff.mp found
        by_cases string : ∃ words, entry = .string words
        · obtain ⟨words, rfl⟩ := string
          exact .said read last states
        · have noString := not_exists.mp string
          rw [describe_of_ne noString]
          exact .stated read last noString (Json.filedAs_iff.mpr rfl) states

/-- The error of an answer is what the answer tells. -/
theorem outcome_eq_error_iff : reply.outcome wording = .error e ↔
    reply.status ≠ 201 ∧ ∃ words, e = .api words ∧ reply.Tells wording words := by
  by_cases created : reply.status = 201
  · rw [outcome_eq_ok_iff.mpr created]
    simp [created]
  · rw [outcome, if_neg created]
    constructor
    · rintro ⟨⟩
      exact ⟨created, _, rfl, tells_iff.mpr rfl⟩
    · rintro ⟨_, words, rfl, tells⟩
      rw [tells_iff.mp tells]

end Outcome

end StoreReply

/-! ### Requests -/

/-- The store reads the decision from the body of the request: an object with the name of the
decision and its document, from which the decision is decoded if its declared types are canonical.
-/
def WriteRequest.Carries (request : WriteRequest) (decision : Decision) : Prop :=
  Json.parse request.body =
      .ok (.object [("filename", .string decision.name), ("content", decision.toJson)]) ∧
    (Json.decode Decision.decoder decision.toJson = .ok decision ↔ decision.Canonical)

namespace RemoteStore

/-- The address is the text without the slashes at its end. -/
theorem ofUrl_address (url : String) :
    (∃ count, url.toList = (ofUrl url).address.toList ++ List.replicate count '/') ∧
      (ofUrl url).address.toList.getLast? ≠ some '/' := by
  let slash (c : Char) : Bool := c = '/'
  have address : (ofUrl url).address.toList = (url.toList.reverse.dropWhile slash).reverse := by
    simp [ofUrl, slash]
  rw [address]
  constructor
  · have slashes : ∀ c ∈ url.toList.reverse.takeWhile slash, c = '/' := fun c mem => by
      simpa [slash] using List.mem_takeWhile_imp mem
    refine ⟨(url.toList.reverse.takeWhile slash).length, ?_⟩
    rw [← List.reverse_replicate, ← List.eq_replicate_of_mem slashes, ← List.reverse_append,
      List.takeWhile_append_dropWhile, List.reverse_reverse]
  · rw [List.getLast?_reverse]
    intro first
    have notSlash := List.head?_dropWhile_not slash url.toList.reverse
    rw [first] at notSlash
    exact nomatch notSlash

theorem request_carries (store : RemoteStore) (decision : Decision) :
    (store.request decision).Carries decision := by
  constructor
  · refine Json.parse_print Json.Style.compact_lawful (.object fun member mem => ?_)
    obtain rfl | rfl := by simpa using mem
    · exact .string _
    · exact decision.readable_toJson
  · constructor
    · intro decoded
      rw [Json.decode] at decoded
      cases read : Decision.decoder (.ofJson decision.toJson) with
      | error problem =>
        rw [read] at decoded
        exact nomatch decoded
      | ok other =>
        rw [read] at decoded
        obtain rfl := Except.ok.inj decoded
        exact Decision.canonical_of_decoder read
    · intro canonical
      rw [Json.decode, Decision.decoder_toJson canonical]
      rfl

end RemoteStore

/-! ### A batch -/

/-- The request at a position is assembled to the decision. -/
def Compiler.AssemblesAt (compiler : Compiler) (requests : List DecisionRequest) (i : Nat)
    (decision : Decision) : Prop :=
  ∃ request, requests[i]? = some request ∧ compiler.assemble request = .ok decision

theorem Compiler.assemblesAt_of_forall₂ {compiler : Compiler} {before : List DecisionRequest}
    {decisions : List Decision}
    (assembled : List.Forall₂ (fun request decision => compiler.assemble request = .ok decision)
      before decisions) (after : List DecisionRequest) {i : Nat} {decision : Decision}
    (found : decisions[i]? = some decision) :
    compiler.AssemblesAt (before ++ after) i decision := by
  induction assembled generalizing i with
  | nil => exact nomatch found
  | @cons request _ _ _ first _ ih =>
    cases i with
    | zero =>
      obtain rfl := Option.some.inj found
      exact ⟨request, rfl, first⟩
    | succ i => exact ih found

theorem Compiler.not_assemblesAt_of_error {compiler : Compiler} {requests : List DecisionRequest}
    {i : Nat} {request : DecisionRequest} {e : CompileError} {decision : Decision}
    (found : requests[i]? = some request) (refused : compiler.assemble request = .error e) :
    ¬compiler.AssemblesAt requests i decision := by
  rintro ⟨_, found', assembled⟩
  obtain rfl := Option.some.inj (found.symm.trans found')
  exact nomatch refused.symm.trans assembled

namespace Exchange

/-- The answer that comes behind the given number of others. -/
def reply (exchange : Exchange) (i : Nat) : StoreReply :=
  exchange.replies[i]?.getD .written

/-- Why a batch ends when the given number of requests was sent, and with which result. -/
inductive Ends (wording : Json.Wording) (exchange : Exchange) (compiler : Compiler)
    (requests : List DecisionRequest) (count : Nat) : Except ServiceError Unit → Prop where
  | written (all : requests.length = count)
      (accepted : ∀ i < count, (exchange.reply i).status = 201) :
      Ends wording exchange compiler requests count (.ok ())
  | uncompiled {request : DecisionRequest} {e : CompileError}
      (accepted : ∀ i < count, (exchange.reply i).status = 201)
      (next : requests[count]? = some request) (refused : compiler.assemble request = .error e) :
      Ends wording exchange compiler requests count (.error (.compile e))
  | rejected {i : Nat} {e : RepositoryError} (last : count = i + 1)
      (refused : (exchange.reply i).outcome wording = .error e) :
      Ends wording exchange compiler requests count (.error (.persistence e))

/-- The course of a batch: the decisions sent are those at their positions, and all but the last of
them are accepted when the batch ends. -/
structure Course (wording : Json.Wording) (exchange : Exchange) (compiler : Compiler)
    (requests : List DecisionRequest) (decisions : List Decision)
    (result : Except ServiceError Unit) : Prop where
  assembled : ∀ i decision, decisions[i]? = some decision → compiler.AssemblesAt requests i decision
  accepted : ∀ i, i + 1 < decisions.length → (exchange.reply i).status = 201
  ends : exchange.Ends wording compiler requests decisions.length result

section Course

variable {wording : Json.Wording} {exchange : Exchange} {compiler : Compiler}
  {requests : List DecisionRequest} {decisions : List Decision}
  {result : Except ServiceError Unit} {i : Nat}

theorem Course.assembles (course : exchange.Course wording compiler requests decisions result)
    (sent : i < decisions.length) : ∃ decision, compiler.AssemblesAt requests i decision :=
  ⟨decisions[i], course.assembled i _ (List.getElem?_eq_getElem sent)⟩

/-- A decision is sent if everything up to it is assembled and everything before it accepted. -/
theorem Course.sent_iff (course : exchange.Course wording compiler requests decisions result) :
    i < decisions.length ↔ (∀ j ≤ i, ∃ decision, compiler.AssemblesAt requests j decision) ∧
      ∀ j < i, (exchange.reply j).status = 201 := by
  constructor
  · intro sent
    refine ⟨fun j upTo => course.assembles (Nat.lt_of_le_of_lt upTo sent), fun j before => ?_⟩
    exact course.accepted j (by omega)
  · rintro ⟨assembles, accepted⟩
    by_contra notSent
    rw [Nat.not_lt] at notSent
    -- The batch has ended at or before this position, and each way to end breaks a premise.
    cases course.ends with
    | written all _ =>
      obtain ⟨_, _, found, _⟩ := assembles _ notSent
      rw [← all, List.getElem?_eq_none (Nat.le_refl _)] at found
      exact nomatch found
    | uncompiled _ next refused =>
      obtain ⟨_, assembled⟩ := assembles _ notSent
      exact Compiler.not_assemblesAt_of_error next refused assembled
    | @rejected last _ count refused =>
      have created := (StoreReply.outcome_eq_error_iff.mp refused).1
      exact created (accepted last (by omega))

/-- The batch succeeds if everything is assembled and accepted. -/
theorem Course.succeeded_iff (course : exchange.Course wording compiler requests decisions result) :
    result = .ok () ↔ ∀ i < requests.length,
      (∃ decision, compiler.AssemblesAt requests i decision) ∧
        (exchange.reply i).status = 201 := by
  cases course.ends with
  | written all accepted =>
    refine iff_of_true rfl fun i inside => ?_
    rw [all] at inside
    exact ⟨course.assembles inside, accepted i inside⟩
  | uncompiled _ next refused =>
    refine iff_of_false nofun fun all => ?_
    obtain ⟨⟨_, assembled⟩, _⟩ := all _ (List.getElem?_eq_some_iff.mp next).1
    exact Compiler.not_assemblesAt_of_error next refused assembled
  | @rejected last e count refused =>
    refine iff_of_false nofun fun all => ?_
    obtain ⟨_, _, found, _⟩ := course.assembles (show last < decisions.length by omega)
    obtain ⟨_, accepted⟩ := all last (List.getElem?_eq_some_iff.mp found).1
    exact (StoreReply.outcome_eq_error_iff.mp refused).1 accepted

/-- An answer other than `201` is the last one, and the result is what it tells. -/
theorem Course.rejected (course : exchange.Course wording compiler requests decisions result)
    (sent : i < decisions.length) (refused : (exchange.reply i).status ≠ 201) :
    decisions.length = i + 1 ∧ ∀ error, result = .error error ↔
      ∃ words, error = .persistence (.api words) ∧ (exchange.reply i).Tells wording words := by
  have last : decisions.length = i + 1 := by
    by_contra further
    exact refused (course.accepted i (by omega))
  refine ⟨last, fun error => ?_⟩
  cases course.ends with
  | written _ accepted => exact absurd (accepted i sent) refused
  | uncompiled accepted _ _ => exact absurd (accepted i sent) refused
  | @rejected j e count told =>
    obtain rfl : j = i := by omega
    obtain ⟨_, words, rfl, tells⟩ := StoreReply.outcome_eq_error_iff.mp told
    constructor
    · rintro ⟨⟩
      exact ⟨words, rfl, tells⟩
    · rintro ⟨words', rfl, tells'⟩
      rw [StoreReply.tells_iff.mp tells, StoreReply.tells_iff.mp tells']

end Course

/-- What is sent while a batch is compiled into a store and what this comes to, by position. -/
structure Converses (wording : Json.Wording) (exchange : Exchange) (compiler : Compiler)
    (store : RemoteStore) (requests : List DecisionRequest) (sent : List WriteRequest)
    (result : Except ServiceError Unit) : Prop where
  /-- Requests are posted to one address. -/
  posted : ∀ request ∈ sent,
    request.method = "POST" ∧ request.url = store.address ++ "/json/write"
  /-- A request is sent if everything up to it is assembled and everything before it accepted. -/
  reached : ∀ i, i < sent.length ↔
    (∀ j ≤ i, ∃ decision, compiler.AssemblesAt requests j decision) ∧
      ∀ j < i, (exchange.reply j).status = 201
  /-- A request carries the decision of its position. -/
  carried : ∀ i request, sent[i]? = some request →
    ∃ decision, compiler.AssemblesAt requests i decision ∧ request.Carries decision
  /-- The batch succeeds if everything is assembled and accepted. -/
  succeeded : result = .ok () ↔ ∀ i < requests.length,
    (∃ decision, compiler.AssemblesAt requests i decision) ∧ (exchange.reply i).status = 201
  /-- An answer other than `201` is the last one, and the result is what it tells. -/
  rejected : ∀ i < sent.length, (exchange.reply i).status ≠ 201 →
    sent.length = i + 1 ∧ ∀ error, result = .error error ↔
      ∃ words, error = .persistence (.api words) ∧ (exchange.reply i).Tells wording words
  /-- No other failure is reported as one of the store. -/
  persistence : ∀ e, result = .error (.persistence e) →
    ∃ i < sent.length, (exchange.reply i).status ≠ 201
  /-- A decision that cannot be compiled is reported where it stands. -/
  uncompiled : ∀ e, result = .error (.compile e) → ∃ request,
    requests[sent.length]? = some request ∧ compiler.assemble request = .error e

end Exchange

namespace RemoteStore

/-- The service that compiles into the store. -/
def service (wording : Json.Wording) (store : RemoteStore) (compiler : Compiler) :
    Service Exchange :=
  ⟨compiler, store.repository wording⟩

section Runs

variable {wording : Json.Wording} {store : RemoteStore} {compiler : Compiler}
  {exchange last : Exchange} {requests : List DecisionRequest} {decisions : List Decision}

/-- An insert sends the request and takes the next answer. -/
theorem insert_eq (wording : Json.Wording) (store : RemoteStore) (exchange : Exchange)
    (decision : Decision) :
    (store.repository wording).insert exchange decision =
      (⟨exchange.sent ++ [store.request decision], exchange.replies.tail⟩,
        (exchange.reply 0).outcome wording) := by
  cases replies : exchange.replies <;>
    simp [repository, Exchange.send, Exchange.reply, replies]

/-- Decisions that pass are sent and accepted. -/
theorem sent_of_passes
    (passes : (store.service wording compiler).Passes exchange requests decisions last) :
    last = ⟨exchange.sent ++ decisions.map store.request,
        exchange.replies.drop decisions.length⟩ ∧
      ∀ i < decisions.length, (exchange.reply i).status = 201 := by
  induction passes with
  | nil state => simp
  | @cons state next last _ _ decision decisions _ inserted _ ih =>
    rw [service, insert_eq] at inserted
    obtain ⟨rfl, accepted⟩ := Prod.mk.inj inserted
    obtain ⟨rfl, rest⟩ := ih
    refine ⟨by simp, fun i inside => ?_⟩
    cases i with
    | zero => exact StoreReply.outcome_eq_ok_iff.mp accepted
    | succ i => simpa [Exchange.reply] using rest i (Nat.lt_of_succ_lt_succ inside)

/-- Every batch takes some course. -/
theorem exists_course (wording : Json.Wording) (store : RemoteStore) (compiler : Compiler)
    (exchange : Exchange) (requests : List DecisionRequest) :
    ∃ (decisions : List Decision) (last : Exchange) (result : Except ServiceError Unit),
      (store.service wording compiler).compileAll exchange requests = (last, result) ∧
        last.sent = exchange.sent ++ decisions.map store.request ∧
        exchange.Course wording compiler requests decisions result := by
  obtain ⟨decisions, last, passes⟩ |
    ⟨before, request, after, decisions, kept, error, tried, last, rfl, passes, fails⟩ :=
      (store.service wording compiler).passes_or_fails exchange requests
  · obtain ⟨rfl, accepted⟩ := sent_of_passes passes
    have assembled := passes.assembled
    have count : requests.length = decisions.length := assembled.length_eq
    refine ⟨decisions, _, _, passes.compileAll_eq, rfl, fun i decision found => ?_,
      fun i inside => accepted i (Nat.lt_of_succ_lt inside), ?_⟩
    · have assembles := Compiler.assemblesAt_of_forall₂ assembled [] found
      rw [List.append_nil] at assembles
      exact assembles
    · exact .written count accepted
  · obtain ⟨rfl, accepted⟩ := sent_of_passes passes
    have assembled := passes.assembled
    have count : before.length = decisions.length := assembled.length_eq
    have run : (store.service wording compiler).compileAll exchange (before ++ request :: after) =
        (last, .error error) := passes.compileAll_eq_of_fails fails
    cases fails with
    | compile refused =>
      refine ⟨decisions, _, _, run, rfl, fun i decision found => ?_,
        fun i inside => accepted i (Nat.lt_of_succ_lt inside), ?_⟩
      · exact Compiler.assemblesAt_of_forall₂ assembled _ found
      · refine .uncompiled accepted ?_ refused
        rw [← count, List.getElem?_append_right (Nat.le_refl _)]
        simp
    | @persistence decision e last assembles refused =>
      rw [service, insert_eq] at refused
      obtain ⟨rfl, rejected⟩ := Prod.mk.inj refused
      have both := List.rel_append assembled (.cons assembles .nil)
      refine ⟨decisions ++ [decision], _, _, run, by simp, fun i decision found => ?_,
        fun i inside => accepted i (by simpa using inside), ?_⟩
      · have assembles := Compiler.assemblesAt_of_forall₂ both after found
        rw [List.append_assoc] at assembles
        exact assembles
      · exact .rejected (List.length_append) (by simpa [Exchange.reply] using rejected)

end Runs

/-- **A batch and a remote store.** Compile a batch into the store at a text, whatever was sent to
it before and whatever it will answer. The address of the store is the text without the slashes at
its end; behind what was sent before, requests are sent as `Exchange.Converses` says: one for each
decision in order, as long as everything is assembled and every answer is `201`, and the first thing
that goes wrong is the result. -/
theorem compileBatch_converses (wording : Json.Wording) (compiler : Compiler) (url : String)
    (exchange : Exchange) (batch : Batch) :
    let store := ofUrl url
    let run := (store.service wording compiler).compileBatch exchange batch
    (∃ count, url.toList = store.address.toList ++ List.replicate count '/') ∧
      store.address.toList.getLast? ≠ some '/' ∧
      ∃ sent, run.1.sent = exchange.sent ++ sent ∧
        exchange.Converses wording compiler store batch.decisions sent run.2 := by
  intro store run
  obtain ⟨decisions, last, result, outcome, sent, course⟩ :=
    exists_course wording store compiler exchange batch.decisions
  have run_eq : run = (last, result) := outcome
  rw [run_eq]
  obtain ⟨slashes, bare⟩ := ofUrl_address url
  refine ⟨slashes, bare, decisions.map store.request, sent, ?_⟩
  have count : (decisions.map store.request).length = decisions.length := List.length_map _
  constructor
  · intro request mem
    obtain ⟨decision, _, rfl⟩ := List.mem_map.mp mem
    exact ⟨rfl, rfl⟩
  · intro i
    rw [count]
    exact course.sent_iff
  · intro i request found
    rw [List.getElem?_map] at found
    obtain ⟨decision, foundDecision, rfl⟩ := Option.map_eq_some_iff.mp found
    exact ⟨decision, course.assembled i decision foundDecision, store.request_carries decision⟩
  · exact course.succeeded_iff
  · intro i inside refused
    rw [count] at inside ⊢
    exact course.rejected inside refused
  · rintro e ⟨⟩
    cases course.ends with
    | @rejected i _ last refused =>
      exact ⟨i, by omega, (StoreReply.outcome_eq_error_iff.mp refused).1⟩
  · rintro e ⟨⟩
    rw [count]
    cases course.ends with
    | @uncompiled request _ _ next refused => exact ⟨request, next, refused⟩

/-- The second of three decisions is refused with a reason, and the third one is never sent. -/
theorem compileBatch_converses_refused :
    let batch : Batch := ⟨[.named "loan", .named "rate", .named "term"]⟩
    let reason : Json := .object [("error", .string "locked")]
    let refusal : StoreReply := ⟨409, reason.compact⟩
    let wording : Json.Wording := fun text _ => text
    let service := (ofUrl "http://store//").service wording {}
    let run := service.compileBatch ⟨[], [.written, refusal]⟩ batch
    run.1.sent.length = 2 ∧
      (∀ request ∈ run.1.sent, request.url = "http://store/json/write") ∧
      run.2 = .error (.persistence (.api "http 409 Conflict from document store - locked")) := by
  intro batch reason refusal wording service run
  obtain ⟨_, _, sent, sent_eq, converses⟩ :=
    compileBatch_converses wording {} "http://store//" ⟨[], [.written, refusal]⟩ batch
  change run.1.sent = [] ++ sent at sent_eq
  rw [List.nil_append] at sent_eq
  have second : 1 < sent.length := by
    refine (converses.reached 1).mpr ⟨fun j upTo => ?_, fun j before => ?_⟩
    · match j, upTo with
      | 0, _ => exact ⟨_, _, rfl, rfl⟩
      | 1, _ => exact ⟨_, _, rfl, rfl⟩
    · obtain rfl := Nat.lt_one_iff.mp before
      rfl
  obtain ⟨count, errors⟩ := converses.rejected 1 second (by decide)
  have read : Json.parse refusal.content = .ok (.object ([] ++ [("error", .string "locked")])) :=
    Json.parse_print Json.Style.compact_lawful
      (.object (List.forall_mem_singleton.mpr (.string "locked")))
  have listed : (409, "Conflict") ∈ Http.reasons := by decide
  have states : Http.States 409 "409 Conflict" := .reasoned listed
  have tells : refusal.Tells wording "http 409 Conflict from document store - locked" :=
    .said read List.not_mem_nil states
  rw [sent_eq]
  refine ⟨count, fun request mem => ?_, (errors _).mpr ⟨_, rfl, tells⟩⟩
  exact (converses.posted request mem).2

end RemoteStore

end DecisionCompiler
