import DecisionCompiler.Decision.Document
import DecisionCompiler.Http.Status
import DecisionCompiler.Json.Printer
import DecisionCompiler.Repository

/-!
A remote document store.

Every decision is sent in a request of its own, which the store answers with `201` when it has
written the document. Any other answer is a refusal; the store may explain it in the member `error`
of an object. An answer that is no JSON is reported in the words of the reader that refused it. The
state of the exchange is what was sent so far and what the store will answer; a store that has
nothing prepared answers that it has written the document.
-/

namespace DecisionCompiler

/-- A request to write a document. -/
structure WriteRequest where
  method : String
  url : String
  body : String
deriving DecidableEq

/-- An answer of the store. -/
structure StoreReply where
  status : Nat
  body : String
deriving DecidableEq

/-- An exchange with a store: the requests sent, in order, and the answers to the next ones. -/
structure Exchange where
  sent : List WriteRequest := []
  replies : List StoreReply := []
deriving DecidableEq

/-- The answer of a store that has written the document. -/
def StoreReply.written : StoreReply :=
  ⟨201, ""⟩

/-- What arrives of the body of an answer; some answers have none by their status. -/
def StoreReply.content (reply : StoreReply) : String :=
  if reply.status = 204 ∨ reply.status = 304 then "" else reply.body

/-- An explanation in words: a string as it is, any other document as its text. -/
def StoreReply.describe : Json → String
  | .string s => s
  | json => json.filed.compact

/-- What a refusal says. -/
def StoreReply.rejection (wording : Json.Wording) (reply : StoreReply) : String :=
  match Json.parse reply.content with
  | .error why => s!"Failed to decode document store response: {wording reply.content why}"
  | .ok json =>
    match json.member? "error" with
    | some entry =>
      s!"http {Http.statusLine reply.status} from document store - {describe entry}"
    | none => s!"document store returned http status code {reply.status} with no error description"

/-- What an answer means for the decision that was sent. -/
def StoreReply.outcome (wording : Json.Wording) (reply : StoreReply) :
    Except RepositoryError Unit :=
  if reply.status = 201 then .ok () else .error (.api (reply.rejection wording))

namespace Exchange

/-- Sends a request and takes the answer to it. -/
def send (exchange : Exchange) (request : WriteRequest) : Exchange × StoreReply :=
  match exchange.replies with
  | [] => (⟨exchange.sent ++ [request], []⟩, .written)
  | reply :: replies => (⟨exchange.sent ++ [request], replies⟩, reply)

end Exchange

/-- A remote store, known by its address without slashes at the end. -/
structure RemoteStore where
  address : String
deriving DecidableEq

namespace RemoteStore

/-- The store at an address. -/
def ofUrl (url : String) : RemoteStore :=
  ⟨String.ofList (url.toList.reverse.dropWhile (· = '/')).reverse⟩

/-- Where documents are written. -/
def writeUrl (store : RemoteStore) : String :=
  store.address ++ "/json/write"

/-- What is sent to write a decision. -/
def document (decision : Decision) : Json :=
  .object [("filename", .string decision.name), ("content", decision.toJson)]

/-- The request that writes a decision. -/
def request (store : RemoteStore) (decision : Decision) : WriteRequest :=
  ⟨"POST", store.writeUrl, (document decision).compact⟩

/-- The kind of repository that a remote store is. -/
def backend : String := "api"

/-- The repository over a remote store. -/
def repository (wording : Json.Wording) (store : RemoteStore) : Repository Exchange where
  backend := backend
  insert exchange decision :=
    let (exchange, reply) := exchange.send (store.request decision)
    (exchange, reply.outcome wording)

end RemoteStore

end DecisionCompiler
