import DecisionCompiler.Http.MediaType
import DecisionCompiler.Request.Document
import DecisionCompiler.Service

/-!
The HTTP endpoint of a service.

Two paths are served: `/health`, which can be asked for, and `/decisions`, to which batches are
posted. A batch has to be announced as JSON and is read up to the end of its first document; a body
that is refused leaves the repository as it is. Refusals are answered by an object with the reason
and the status; what is wrong with a body is told in the words of its reader (`Wording`). Asking for
the options of anything is answered without looking at it.
-/

namespace DecisionCompiler.Http

/-- A request. -/
structure Request where
  method : String
  target : String
  contentType : Option String
  body : String

/-- What a response carries. -/
inductive Body where
  | empty
  | document (json : Json)

/-- A response. -/
structure Response where
  status : Nat
  body : Body

/-- A failure as the endpoint reports it, with the reason. -/
inductive Failure where
  /-- The fault lies with what was sent. -/
  | invalidRequest (reason : String)
  /-- The fault lies with where decisions are kept. -/
  | persistence (reason : String)
deriving DecidableEq

namespace Failure

/-- The status of the answer. -/
def status : Failure → Nat
  | invalidRequest _ => 400
  | persistence _ => 500

/-- The reason alone. -/
def reason : Failure → String
  | invalidRequest reason => reason
  | persistence reason => reason

/-- The failure in words. -/
def message : Failure → String
  | invalidRequest reason => s!"Invalid request: {reason}"
  | persistence reason => s!"Persistence error: {reason}"

/-- A failure of the service. -/
def ofServiceError (e : ServiceError) : Failure :=
  if e.isClientError then invalidRequest e.message else persistence e.message

/-- The answer that reports a failure. -/
def response (failure : Failure) : Response :=
  ⟨failure.status,
    .document (.object
      [("error", .string failure.reason), ("status", .number (.integer failure.status))])⟩

end Failure

/-- The largest body that is read, in bytes. -/
def bodyLimit : Nat :=
  2 * 1024 * 1024

/-- Why a body is refused. -/
inductive Refusal where
  | notAnnounced
  | tooLarge
  | unreadable (why : Json.Rejection)
deriving DecidableEq

/-- A refusal in words, the last of which are those of the reader. -/
def Refusal.message (text : String) : Refusal → String
  | notAnnounced => "Missing 'Content-Type: application/json' header"
  | tooLarge => s!"Failed to parse JSON: {text}"
  | unreadable .mismatch => s!"Invalid JSON data: {text}"
  | unreadable .malformed => s!"JSON syntax error: {text}"
  | unreadable .truncated => s!"JSON syntax error: {text}"

/-- How a reader of bodies words its refusal of a request. -/
abbrev Wording := Request → Refusal → String

namespace Request

/-- The request announces its body as JSON. -/
def announcesJson (request : Request) : Bool :=
  ((request.contentType.bind MediaType.ofString?).map MediaType.isJson).getD false

/-- The batch in the body. -/
def batch (request : Request) : Except Refusal Batch :=
  if !request.announcesJson then .error .notAnnounced
  else if bodyLimit < request.body.utf8ByteSize then .error .tooLarge
  else (Json.decodeLeading Batch.decoder request.body).mapError .unreadable

/-- The path of a target, without scheme, authority, query and fragment. -/
def path (request : Request) : String :=
  let text := request.target.toList
  let endsAuthority (c : Char) : Bool := c == '/' || c == '?' || c == '#'
  let rooted :=
    match Text.splitOnce? [':', '/', '/'] text with
    | some (scheme, rest) =>
      if '/' ∈ scheme then text else rest.dropWhile fun c => !endsAuthority c
    | none => text
  let path := rooted.takeWhile fun c => c != '?' && c != '#'
  if path.isEmpty then "/" else String.ofList path

end Request

/-- The version that the health answer states. -/
def version : String := "0.1.0"

/-- The answer to asking for health. -/
def healthResponse : Response :=
  ⟨200, .document (.object [("status", .string "healthy"), ("version", .string version)])⟩

/-- The answer to a request whose body is refused. -/
def Refusal.response (wording : Wording) (request : Request) (refusal : Refusal) : Response :=
  (Failure.invalidRequest (refusal.message (wording request refusal))).response

/-- Compiles the batch of a request that was posted. -/
def saveDecisions {σ : Type} (wording : Wording) (service : Service σ) (state : σ)
    (request : Request) : σ × Response :=
  match request.batch with
  | .error refusal => (state, refusal.response wording request)
  | .ok batch =>
    match service.compileBatch state batch with
    | (state, .ok ()) => (state, ⟨201, .empty⟩)
    | (state, .error e) => (state, (Failure.ofServiceError e).response)

/-- Answers a request. -/
def handle {σ : Type} (wording : Wording) (service : Service σ) (state : σ) (request : Request) :
    σ × Response :=
  match request.method, request.path with
  | "OPTIONS", _ => (state, ⟨200, .empty⟩)
  | "GET", "/health" => (state, healthResponse)
  | "HEAD", "/health" => (state, ⟨200, .empty⟩)
  | "POST", "/decisions" => saveDecisions wording service state request
  | _, "/health" => (state, ⟨405, .empty⟩)
  | _, "/decisions" => (state, ⟨405, .empty⟩)
  | _, _ => (state, ⟨404, .empty⟩)

end DecisionCompiler.Http
