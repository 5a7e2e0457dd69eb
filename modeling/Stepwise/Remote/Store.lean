/-
# The remote store

The store is a service that keeps entries. An entry is asked for with its key in the
query, and is set by sending it. The requests carry the token of the worker, if there is
one. A missing entry is not an error when it is asked for.

Key definitions: `Request`, `Response`, `RemoteStore`, `RemoteStore.get`,
`RemoteStore.put`.
-/
import Stepwise.Executor.Error
import Stepwise.Json.Decode
import Stepwise.Json.Reader
import Stepwise.Remote.Url

namespace Stepwise

/-- What is asked of a service. -/
inductive Method where
  | get
  | post
  deriving DecidableEq, Repr

/-- The word for a method. -/
def Method.word : Method → String
  | .get => "GET"
  | .post => "POST"

/-- A request to a service. -/
structure Request where
  method : Method
  url : Url
  authorization : Option String
  contentType : Option String
  body : String
  deriving DecidableEq, Repr

/-- The first line of a request. -/
def Request.line (r : Request) : String :=
  r.method.word ++ " " ++ r.url.target ++ " HTTP/1.1"

/-- What a service answers. -/
structure Response where
  status : Nat
  body : String
  deriving DecidableEq, Repr

namespace Response

/-- The response as it is received. Its status has three digits and is no interim one;
after some statuses there is no body. -/
def received? (r : Response) : Option Response :=
  if r.status < 100 || 999 < r.status then none
  else if r.status < 200 && r.status ≠ 101 then none
  else if r.status = 101 || r.status = 204 || r.status = 304 then some { r with body := "" }
  else some r

/-- Whether the status is a success. -/
def isSuccess (r : Response) : Bool := 200 ≤ r.status && r.status < 300

/-- The body without the mark that may stand at the beginning of a text. -/
def text (r : Response) : String :=
  match r.body.toList with
  | '\ufeff' :: rest => String.ofList rest
  | _ => r.body

/-- The error that a status other than a success is. -/
def error (r : Response) : CallError := .status r.status r.text

end Response

/-- An entry of the store. -/
structure StoreEntry where
  key : String
  value : Json

namespace StoreEntry

/-- An entry as a record. -/
def written (e : StoreEntry) : Json := .obj [("key", .str e.key), ("value", e.value)]

/-- The entry in a record; a value that is absent is null. -/
def decode (v : Json) : Except Json.DecodeError StoreEntry := do
  let s ← Json.Slots.of .text "StoreEntry" ["key", "value"] v
  s.finish
    (Json.both (s.required 0 "key" Json.decodeString)
      (s.withDefault 1 .null Json.decodeValue))
    fun (key, value) => ⟨key, value⟩

end StoreEntry

/-- The store as a client sees it. -/
structure RemoteStore where
  /-- The address of the service. -/
  base : String
  /-- The token of the worker. -/
  token : Option String
  deriving DecidableEq, Repr

namespace RemoteStore

variable {m : Type → Type} [Monad m]

/-- The address of the entries. -/
def entriesUrl? (store : RemoteStore) : Option Url :=
  let base := (store.base.toList.reverse.dropWhile (· = '/')).reverse
  Url.ofText? (String.ofList base ++ "/v1/store-entries")

/-- Whether a text can stand in the head of a request. -/
def isHeadText (s : String) : Bool :=
  s.toList.all fun c => (0x20 ≤ c.toNat && c.toNat ≠ 0x7F) || c = '\t'

/-- A text in the head of a request, without the blanks at its ends. -/
def headText (s : String) : String :=
  let blank (c : Char) : Bool := c = ' ' || c = '\t'
  String.ofList ((s.toList.dropWhile blank).reverse.dropWhile blank).reverse

/-- A request to the store, unless its address or token is unusable. -/
def request? (store : RemoteStore) (method : Method) (url : Option Url)
    (contentType : Option String) (body : String) : Option Request :=
  url.bind fun url =>
    if store.token.all isHeadText then
      some ⟨method, url, store.token.map fun t => headText ("Bearer " ++ t), contentType, body⟩
    else none

/-- The request for an entry. -/
def getRequest? (store : RemoteStore) (key : String) : Option Request :=
  store.request? .get (store.entriesUrl?.map (·.withField "key" key)) none ""

/-- The request that sets an entry. -/
def putRequest? (store : RemoteStore) (key : String) (value : Json) : Option Request :=
  store.request? .post store.entriesUrl? (some "application/json")
    (StoreEntry.written ⟨key, value⟩).compact

/-- The value of the body of a response. -/
def decodeBody {α : Type} (decode : Json → Except Json.DecodeError α) (r : Response) :
    Except CallError α :=
  match Json.readWritten Json.depthLimit r.body.toList with
  | .error _ => .error (.http .decoding)
  | .ok v =>
    match decode v with
    | .ok a => .ok a
    | .error _ => .error (.http .decoding)

/-- What the response to a request for an entry means. -/
def getReply (r : Response) : Except CallError (Option Json) :=
  if r.status = 404 then .ok none
  else if !r.isSuccess then .error r.error
  else (decodeBody (Json.decodeOption StoreEntry.decode) r).map (·.map (·.value))

/-- What the response to a request that sets an entry means. -/
def putReply (r : Response) : Except CallError Json :=
  if !r.isSuccess then .error r.error
  else (decodeBody StoreEntry.decode r).map (·.value)

/-- Sends a request and reads the response. -/
def exchange {α : Type} (send : Request → m (Option Response)) (request : Option Request)
    (reply : Response → Except CallError α) : m (Except CallError α) :=
  match request with
  | none => pure (.error (.http .transport))
  | some request => do
    match (← send request).bind (·.received?) with
    | none => return .error (.http .transport)
    | some response => return reply response

/-- Reads an entry. -/
def get (store : RemoteStore) (send : Request → m (Option Response)) (key : String) :
    m (Except CallError (Option Json)) :=
  exchange send (store.getRequest? key) getReply

/-- Sets an entry. -/
def put (store : RemoteStore) (send : Request → m (Option Response)) (key : String)
    (value : Json) : m (Except CallError Json) :=
  exchange send (store.putRequest? key value) putReply

end RemoteStore
end Stepwise
