import DecisionCompiler.Http.Endpoint
import DecisionCompiler.Proofs.Request.Document
import DecisionCompiler.Proofs.Service.Batch
import DecisionCompiler.Store.Directory

/-!
What a posted batch is answered, and what reaches the repository.

A body is refused, or it is read as a batch (`batch_eq_ok_iff`), and then the answer is that to the
result of the batch (`Response.ofResult`). `201` means that the batch was taken in full, `400` that
the fault lies with what was sent, `500` that it lies with the repository. `Fares` follows a posted
request to its end and tells, beside the answer, which decisions the repository was given.

`handle_posted` collects this for requests that are posted to the path of decisions.
-/

namespace DecisionCompiler.Http

variable {σ : Type}

/-! ### Answers -/

/-- The response is an object that states its status and the given words. -/
def Response.Reports (response : Response) (words : String) : Prop :=
  ∃ members, response.body = .document (.object members) ∧
    (Json.object members).member? "status" = some (.number (.integer response.status)) ∧
    (Json.object members).member? "error" = some (.string words)

theorem Failure.response_reports (failure : Failure) : failure.response.Reports failure.reason :=
  ⟨_, rfl, rfl, rfl⟩

namespace Response

/-- The answer to a batch with the given result. -/
def ofResult : Except ServiceError Unit → Response
  | .ok () => ⟨201, .empty⟩
  | .error error => (Failure.ofServiceError error).response

@[simp] theorem ofResult_ok : ofResult (.ok ()) = ⟨201, .empty⟩ :=
  rfl

@[simp] theorem ofResult_compile (e : CompileError) :
    ofResult (.error (.compile e)) = (Failure.invalidRequest e.message).response :=
  rfl

@[simp] theorem ofResult_persistence (e : RepositoryError) :
    ofResult (.error (.persistence e)) = (Failure.persistence e.message).response :=
  rfl

@[simp] theorem status_invalidRequest (reason : String) :
    (Failure.invalidRequest reason).response.status = 400 :=
  rfl

@[simp] theorem status_persistence (reason : String) :
    (Failure.persistence reason).response.status = 500 :=
  rfl

section Statuses

variable {result : Except ServiceError Unit}

theorem status_ofResult_eq_201_iff : (ofResult result).status = 201 ↔ result = .ok () := by
  match result with
  | .ok () | .error (.compile _) | .error (.persistence _) => simp

theorem status_ofResult_eq_400_iff :
    (ofResult result).status = 400 ↔ ∃ e, result = .error (.compile e) := by
  match result with
  | .ok () | .error (.compile _) | .error (.persistence _) => simp

theorem status_ofResult_eq_500_iff :
    (ofResult result).status = 500 ↔ ∃ e, result = .error (.persistence e) := by
  match result with
  | .ok () | .error (.compile _) | .error (.persistence _) => simp

end Statuses

/-- A failure of the service is reported in its own words. -/
theorem ofResult_error_reports (error : ServiceError) :
    (ofResult (.error error)).Reports error.message := by
  cases error with
  | compile e => exact Failure.response_reports (.invalidRequest e.message)
  | persistence e => exact Failure.response_reports (.persistence e.message)

end Response

/-! ### Requests -/

theorem Request.batch_eq_ok_iff {request : Request} {batch : Batch} :
    request.batch = .ok batch ↔
      request.announcesJson = true ∧ request.body.utf8ByteSize ≤ bodyLimit ∧
        Json.decodeLeading Batch.decoder request.body = .ok batch := by
  rw [Request.batch]
  by_cases announced : request.announcesJson = true
  · by_cases large : bodyLimit < request.body.utf8ByteSize
    · simp [announced, large]
    · cases Json.decodeLeading Batch.decoder request.body <;>
        simp [announced, large, Except.mapError, Nat.le_of_not_lt large]
  · simp [announced]

/-- An announced body that begins with a written form of a batch is read as this batch, whatever
stands behind it. -/
theorem Request.batch_of_written {request : Request} {batch : Batch} {draft : Json.Draft}
    {rest : Option (List Char)} (announced : request.announcesJson = true)
    (small : request.body.utf8ByteSize ≤ bodyLimit) (regular : batch.Regular)
    (written : batch.Written draft) (begins : Json.Draft.ofText request.body = ⟨draft, rest⟩) :
    request.batch = .ok batch := by
  refine Request.batch_eq_ok_iff.mpr ⟨announced, small, ?_⟩
  rw [Json.decodeLeading, begins, Batch.decoder_of_written regular written]
  rfl

/-- What a refusal tells: why the body is refused, and behind it the words of its reader. -/
inductive Refusal.Tells (text : String) : Refusal → String → Prop where
  | unannounced : Tells text .notAnnounced "Missing 'Content-Type: application/json' header"
  | unreadable : Tells text .tooLarge ("Failed to parse JSON: " ++ text)
  /-- The body is JSON, but not of the shape of a batch. -/
  | misshapen : Tells text (.unreadable .mismatch) ("Invalid JSON data: " ++ text)
  /-- The body is no JSON, or ends early. -/
  | malformed {why : Json.Rejection} (noData : why ≠ .mismatch) :
      Tells text (.unreadable why) ("JSON syntax error: " ++ text)

theorem Refusal.tells_message (text : String) (refusal : Refusal) :
    refusal.Tells text (refusal.message text) := by
  cases refusal with
  | notAnnounced => exact .unannounced
  | tooLarge => exact .unreadable
  | unreadable why =>
    cases why with
    | mismatch => exact .misshapen
    | malformed | truncated => exact .malformed nofun

section Saving

variable {wording : Wording} {service : Service σ} {state : σ} {request : Request}
  {refusal : Refusal} {batch : Batch}

theorem saveDecisions_of_unread (unread : request.batch = .error refusal) :
    saveDecisions wording service state request =
      (state, refusal.response wording request) := by
  simp only [saveDecisions, unread]

theorem saveDecisions_of_read (read : request.batch = .ok batch) :
    saveDecisions wording service state request =
      ((service.compileBatch state batch).1,
        Response.ofResult (service.compileBatch state batch).2) := by
  simp only [saveDecisions, read]
  rcases service.compileBatch state batch with ⟨last, _ | _⟩ <;> rfl

/-- A status is that of a refusal, or that of the result of the batch. -/
theorem status_eq_iff {status : Nat} :
    (saveDecisions wording service state request).2.status = status ↔
      (400 = status ∧ ∃ refusal, request.batch = .error refusal) ∨
        ∃ batch, request.batch = .ok batch ∧
          (Response.ofResult (service.compileBatch state batch).2).status = status := by
  cases read : request.batch with
  | error refusal => simp [saveDecisions_of_unread read, Refusal.response]
  | ok batch => simp [saveDecisions_of_read read]

/-- A record does not change what a posted request leaves and is answered. -/
theorem saveDecisions_recorded (wording : Wording) (service : Service σ) (state : σ)
    (calls : List Decision) (request : Request) :
    ((saveDecisions wording service.recorded (state, calls) request).1.1,
      (saveDecisions wording service.recorded (state, calls) request).2) =
        saveDecisions wording service state request := by
  cases read : request.batch with
  | error refusal => rw [saveDecisions_of_unread read, saveDecisions_of_unread read]
  | ok batch =>
    have run := Service.compileAll_recorded service state calls batch.decisions
    rw [saveDecisions_of_read read, saveDecisions_of_read read]
    simp only [Service.compileBatch, ← run]

end Saving

/-! ### What reaches the repository -/

/-- How a posted request fares: the state that the repository is left in, the decisions that it was
given, and the answer. -/
inductive Fares (wording : Wording) (service : Service σ) (state : σ) (request : Request) :
    σ → List Decision → Response → Prop where
  /-- The body is refused. -/
  | refused {refusal : Refusal} (unread : request.batch = .error refusal) :
      Fares wording service state request state [] (refusal.response wording request)
  /-- The batch is taken in full. -/
  | created {batch : Batch} {decisions : List Decision} {last : σ}
      (read : request.batch = .ok batch)
      (passes : service.Passes state batch.decisions decisions last) :
      Fares wording service state request last decisions ⟨201, .empty⟩
  /-- A decision of the batch fails behind those that pass. -/
  | failed {batch : Batch} {before after : List DecisionRequest} {failing : DecisionRequest}
      {decisions tried : List Decision} {kept last : σ} {error : ServiceError}
      (read : request.batch = .ok batch) (split : batch.decisions = before ++ failing :: after)
      (passes : service.Passes state before decisions kept)
      (fails : service.Fails kept failing error tried last) :
      Fares wording service state request last (decisions ++ tried)
        (Response.ofResult (.error error))

/-- Every posted request fares in one of these ways. -/
theorem exists_fares (wording : Wording) (service : Service σ) (state : σ) (request : Request) :
    ∃ last calls answer,
      saveDecisions wording service.recorded (state, []) request = ((last, calls), answer) ∧
        Fares wording service state request last calls answer := by
  cases read : request.batch with
  | error refusal => exact ⟨_, _, _, saveDecisions_of_unread read, .refused read⟩
  | ok batch =>
    rw [saveDecisions_of_read read, Service.compileBatch]
    obtain ⟨decisions, last, passes⟩ |
      ⟨before, failing, after, decisions, kept, error, tried, last, split, passes, fails⟩ :=
        Service.passes_or_fails service state batch.decisions
    · have run := Service.compileAll_eq_ok_iff.mpr passes
      exact ⟨last, decisions, _, by rw [run, Response.ofResult_ok], .created read passes⟩
    · have run := Service.compileAll_eq_error_iff.mpr
        ⟨before, failing, after, decisions, kept, tried, split, passes, fails, rfl⟩
      exact ⟨last, decisions ++ tried, _, by rw [run], .failed read split passes fails⟩

/-- What is posted to the path of decisions is saved. -/
theorem handle_eq_saveDecisions {request : Request} (posted : request.method = "POST")
    (addressed : request.path = "/decisions") (wording : Wording) (service : Service σ)
    (state : σ) :
    handle wording service state request = saveDecisions wording service state request := by
  simp [handle, posted, addressed]

/-- What the answer to a posted request says about its batch. -/
structure Answers (wording : Wording) (service : Service σ) (state : σ) (request : Request)
    (answer : Response) : Prop where
  created : answer.status = 201 ↔
    ∃ batch, request.batch = .ok batch ∧ (service.compileBatch state batch).2 = .ok ()
  bare : answer.status = 201 → answer.body = .empty
  invalid : answer.status = 400 ↔
    (∃ refusal, request.batch = .error refusal) ∨
      ∃ batch e, request.batch = .ok batch ∧
        (service.compileBatch state batch).2 = .error (.compile e)
  broken : answer.status = 500 ↔
    ∃ batch e, request.batch = .ok batch ∧
      (service.compileBatch state batch).2 = .error (.persistence e)
  reported : answer.status = 400 ∨ answer.status = 500 → ∃ words, answer.Reports words
  /-- A refusal is reported in words that end in those of the reader. -/
  refusal_reported : ∀ refusal, request.batch = .error refusal →
    ∃ words, refusal.Tells (wording request refusal) words ∧ answer.Reports words
  /-- A failure of the service is reported in the words of its cause. -/
  compile_reported : ∀ batch e, request.batch = .ok batch →
    (service.compileBatch state batch).2 = .error (.compile e) → answer.Reports e.message
  persistence_reported : ∀ batch e, request.batch = .ok batch →
    (service.compileBatch state batch).2 = .error (.persistence e) → answer.Reports e.message

theorem saveDecisions_answers (wording : Wording) (service : Service σ) (state : σ)
    (request : Request) :
    Answers wording service state request (saveDecisions wording service state request).2 := by
  have refusalReported : ∀ refusal, request.batch = .error refusal →
      ∃ words, refusal.Tells (wording request refusal) words ∧
        (saveDecisions wording service state request).2.Reports words := by
    intro refusal unread
    rw [saveDecisions_of_unread unread]
    exact ⟨_, refusal.tells_message _, Failure.response_reports _⟩
  have reports {batch : Batch} {error : ServiceError} (read : request.batch = .ok batch)
      (failed : (service.compileBatch state batch).2 = .error error) :
      (saveDecisions wording service state request).2.Reports error.message := by
    rw [saveDecisions_of_read read, failed]
    exact Response.ofResult_error_reports error
  have created : (saveDecisions wording service state request).2.status = 201 ↔
      ∃ batch, request.batch = .ok batch ∧ (service.compileBatch state batch).2 = .ok () := by
    simp [status_eq_iff, Response.status_ofResult_eq_201_iff]
  have invalid : (saveDecisions wording service state request).2.status = 400 ↔
      (∃ refusal, request.batch = .error refusal) ∨
        ∃ batch e, request.batch = .ok batch ∧
          (service.compileBatch state batch).2 = .error (.compile e) := by
    simp [status_eq_iff, Response.status_ofResult_eq_400_iff]
  have broken : (saveDecisions wording service state request).2.status = 500 ↔
      ∃ batch e, request.batch = .ok batch ∧
        (service.compileBatch state batch).2 = .error (.persistence e) := by
    simp [status_eq_iff, Response.status_ofResult_eq_500_iff]
  refine ⟨created, ?_, invalid, broken, ?_, refusalReported, ?_, ?_⟩
  · intro isCreated
    obtain ⟨batch, read, succeeded⟩ := created.mp isCreated
    rw [saveDecisions_of_read read, succeeded, Response.ofResult_ok]
  · rintro (isInvalid | isBroken)
    · obtain ⟨refusal, unread⟩ | ⟨batch, e, read, failed⟩ := invalid.mp isInvalid
      · obtain ⟨words, _, reported⟩ := refusalReported refusal unread
        exact ⟨words, reported⟩
      · exact ⟨_, reports read failed⟩
    · obtain ⟨batch, e, read, failed⟩ := broken.mp isBroken
      exact ⟨_, reports read failed⟩
  · intro batch e read failed
    exact reports read failed
  · intro batch e read failed
    exact reports read failed

/-- **A posted batch is answered as it fares.** The body is read as a batch if it is announced as
JSON, not too large, and begins with the document of one. The answer is `201` without a body exactly
if the batch is read and succeeds, `400` exactly if it is not read or cannot be compiled, and `500`
exactly if the repository fails. Every `400` and `500` is an object with this status; a failure of
the service is reported in its own words, and a refusal in those that belong to it. With a record
beside the state, the repository turns out untouched if the body is refused, and has otherwise been
given what the batch gives it: the decisions that pass, and the one that it fails on. -/
theorem handle_posted (wording : Wording) (service : Service σ) (state : σ) (request : Request)
    (posted : request.method = "POST") (addressed : request.path = "/decisions") :
    let run := handle wording service state request
    let recorded := handle wording service.recorded (state, []) request
    (∀ batch, request.batch = .ok batch ↔
      request.announcesJson = true ∧ request.body.utf8ByteSize ≤ bodyLimit ∧
        Json.decodeLeading Batch.decoder request.body = .ok batch) ∧
      Answers wording service state request run.2 ∧
      (recorded.1.1, recorded.2) = run ∧
      (∀ refusal, request.batch = .error refusal → recorded.1 = (state, [])) ∧
      (∀ batch, request.batch = .ok batch →
        recorded.1 = (service.recorded.compileBatch (state, []) batch).1) ∧
      Fares wording service state request recorded.1.1 recorded.1.2 run.2 := by
  intro run recorded
  have run_eq : run = saveDecisions wording service state request :=
    handle_eq_saveDecisions posted addressed wording service state
  have recorded_eq : recorded = saveDecisions wording service.recorded (state, []) request :=
    handle_eq_saveDecisions posted addressed wording service.recorded (state, [])
  have same : (recorded.1.1, recorded.2) = run := by
    rw [run_eq, recorded_eq]
    exact saveDecisions_recorded wording service state [] request
  refine ⟨fun batch => Request.batch_eq_ok_iff, ?_, same, ?_, ?_, ?_⟩
  · rw [run_eq]
    exact saveDecisions_answers wording service state request
  · intro refusal unread
    rw [recorded_eq, saveDecisions_of_unread unread]
  · intro batch read
    rw [recorded_eq, saveDecisions_of_read read]
  · obtain ⟨last, calls, answer, saved, fares⟩ := exists_fares wording service state request
    rw [← same, recorded_eq, saved]
    exact fares

/-- The second of two decisions has a name that no document can have; and a decision whose input
refers to no output of another one. -/
theorem handle_posted_invalid_name :
    let batch : Batch := ⟨[.named "loan", .named ".."]⟩
    let request : Request :=
      ⟨"POST", "/decisions", some "application/json", batch.toJson.compact⟩
    let unresolved : Request :=
      ⟨"POST", "/decisions", some "application/json",
        "\x7b\"decisions\":[\x7b\"input_form\":[\x7b\"value\":\"rate\"\x7d]\x7d]\x7d"⟩
    let service : Service Directory := ⟨{}, Directory.repository .unlimited⟩
    let wording : Wording := fun request _ => request.body
    let answer := (handle wording service ⟨none⟩ request).2
    let refused := (handle wording service ⟨none⟩ unresolved).2
    request.path = "/decisions" ∧ answer.status = 500 ∧
      answer.Reports "Invalid decision name: '..'" ∧
      (handle wording service.recorded (⟨none⟩, []) request).1.2 =
        [⟨"loan", [], []⟩, ⟨"..", [], []⟩] ∧
      refused.status = 400 ∧
      refused.Reports "unrecognized source component in 'rate'" := by
  have decoded : Json.decodeLeading Batch.decoder
      "\x7b\"decisions\":[\x7b\"input_form\":[\x7b\"value\":\"rate\"\x7d]\x7d]\x7d" =
        .ok ⟨[⟨"", [{ source := "rate" }], []⟩]⟩ := by
    rfl
  intro batch request unresolved service wording answer refused
  have addressed : request.path = "/decisions" := by decide
  obtain ⟨_, answers, _, _, recorded, _⟩ :=
    handle_posted wording service ⟨none⟩ request rfl addressed
  obtain ⟨_, refusedAnswers, _⟩ :=
    handle_posted wording service ⟨none⟩ unresolved rfl addressed
  have regular : batch.Regular := by
    have named (name : String) : (DecisionRequest.named name).Regular :=
      ⟨List.forall_mem_nil _, List.forall_mem_nil _⟩
    exact List.forall_mem_cons.mpr ⟨named "loan", List.forall_mem_singleton.mpr (named "..")⟩
  have bounded : Json.Bounded Json.maxDepth batch.toJson := by
    have named (name : String) : Json.Bounded 125 (DecisionRequest.named name).toJson := by
      have noFields : Json.Bounded 124 (.array []) := .array (List.forall_mem_nil _)
      exact .object (List.forall_mem_cons.mpr ⟨.string name,
        List.forall_mem_cons.mpr ⟨noFields, List.forall_mem_singleton.mpr noFields⟩⟩)
    refine .object (List.forall_mem_singleton.mpr (.array ?_))
    exact List.forall_mem_cons.mpr ⟨named "loan", List.forall_mem_singleton.mpr (named "..")⟩
  have begins := Json.ofText_print Json.Style.compact_lawful (bounded.readable rfl)
  have read : request.batch = .ok batch :=
    Request.batch_of_written (by decide) (by decide) regular batch.written_toJson begins
  have failed : (service.compileBatch ⟨none⟩ batch).2 = .error (.persistence (.invalidName "..")) :=
    rfl
  have readUnresolved : unresolved.batch = .ok ⟨[⟨"", [{ source := "rate" }], []⟩]⟩ :=
    Request.batch_eq_ok_iff.mpr ⟨by decide, by decide, decoded⟩
  have uncompiled : (service.compileBatch ⟨none⟩ ⟨[⟨"", [{ source := "rate" }], []⟩]⟩).2 =
      .error (.compile (.unrecognizedSource "rate")) :=
    rfl
  refine ⟨addressed, answers.broken.mpr ⟨batch, _, read, failed⟩, ?_, ?_, ?_, ?_⟩
  · exact answers.persistence_reported batch _ read failed
  · rw [recorded batch read]
    rfl
  · exact refusedAnswers.invalid.mpr (.inr ⟨_, _, readUnresolved, uncompiled⟩)
  · exact refusedAnswers.compile_reported _ _ readUnresolved uncompiled

end DecisionCompiler.Http
