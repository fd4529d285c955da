import NexoraGateway.Jobs.Types
import NexoraGateway.Store.Table
import NexoraGateway.Text.Numerals

/-!
# The HTTP client (`shared/src/utils/http-client.ts`)

`request` runs against a `World` that says how each of its fetches ends; number `i` ends as `outcomes i`. It leaves
the list of its `fetch`es and `sleep`s, and a response or an error. The body of the response is of any type `T`, as
in the source.
-/
namespace NexoraGateway.Http

open Store Jobs
open Text.Numerals (parseInt)

/-- `HttpClientConfig` (:18) with the values that the constructor (:146) puts in. -/
structure HttpClientConfig where
  baseUrl : String
  apiKey : String := ""
  apiKeyHeader : String := "Authorization"
  timeoutMs : ℚ := 10000
  maxRetries : ℤ := 3
  baseRetryDelayMs : ℚ := 1000
  maxRetryDelayMs : ℚ := 10000
  userAgent : String := "NexoraCryptoGateway/1.0"
  extraHeaders : List (String × String) := []

inductive Method where
  | GET | POST | PUT | DELETE | PATCH
  deriving DecidableEq

/-- `RequestOptions` (:30). A value of the query is as `String(value)` writes it, the body as `JSON.stringify` does. -/
structure RequestOptions where
  method : Option Method := none
  path : String := ""
  query : List (String × Option String) := []
  body : Option String := none
  headers : List (String × String) := []
  timeoutMs : Option ℚ := none
  idempotent : Option Bool := none
  requestId : Option String := none

/-- An answer of the server; `data` is what `response.json()` or `response.text()` resolves or rejects with. -/
structure Response (T : Type) where
  status : ℕ
  statusText : String := ""
  headers : List (String × String) := []
  data : Except String T

/-- `response.ok`. -/
def Response.ok {T : Type} (response : Response T) : Bool := 200 ≤ response.status ∧ response.status ≤ 299

/-- How a fetch ends: without an answer, by the signal of its timer, or with an answer. -/
inductive Outcome (T : Type) where
  | networkError (message : String)
  | aborted
  | answered (response : Response T)

/-- `HttpResponse` (:41). -/
structure HttpResponse (T : Type) where
  status : ℕ
  headers : List (String × String)
  data : T
  requestId : String

/-- `HttpError` (:50), `HttpTimeoutError` (:64), or an error that is passed on. -/
inductive HttpFailure (T : Type) where
  | http (status : ℕ) (message requestId : String) (responseBody : T)
  | timeout (url : String) (timeoutMs : ℚ) (requestId : String)
  | thrown (message : String)

/-- The arguments of `fetch` (:197). -/
structure FetchInit where
  url : String
  method : Method
  headers : Dict String String
  body : Option String

inductive Effect (T : Type) where
  | fetch (init : FetchInit) (outcome : Outcome T)
  /-- `none` stands for `NaN`. -/
  | sleep (ms : Option ℚ)

/-- What the code does not determine: the ends of the fetches, `Math.random()`, `generateRequestId()`, and the two
functions on texts that it applies to the query and to the URL of a message. -/
structure World (T : Type) where
  outcomes : ℕ → Outcome T
  random : ℕ → Fraction
  generateRequestId : String
  searchParams : List (String × String) → String
  redactUrl : String → String

/-! ## Helpers -/

/-- `buildQueryString` (:113). -/
def buildQueryString (searchParams : List (String × String) → String) (query : List (String × Option String)) :
    String :=
  let str := searchParams (query.filterMap fun (key, value) => value.map (key, ·))
  if str = "" then "" else "?" ++ str

/-- `backoffDelay` (:128). -/
def backoffDelay (attempt : ℕ) (baseMs maxMs : ℚ) (random : Fraction) : ℚ :=
  min (baseMs * 2 ^ attempt + random.val * baseMs) maxMs

/-- `isRetryableStatus` (:137). -/
def isRetryableStatus (status : ℕ) : Bool := status = 429 ∨ status = 502 ∨ status = 503 ∨ status = 504

/-! ## The request -/

section
variable {T : Type} (config : HttpClientConfig) (options : RequestOptions) (world : World T)

/-- `config.baseUrl.replace(/\/$/, '')` (:148). -/
def HttpClientConfig.base : String :=
  String.ofList (if config.baseUrl.toList.getLast? = some '/' then config.baseUrl.toList.dropLast
    else config.baseUrl.toList)

def requestId : String := options.requestId.getD world.generateRequestId

def url : String := config.base ++ options.path ++ buildQueryString world.searchParams options.query

/-- The header fields (:168). -/
def headers : Dict String String :=
  let own : List (String × String) := [("User-Agent", config.userAgent), ("X-Request-ID", requestId options world),
    ("Accept", "application/json")]
  let set := (own ++ config.extraHeaders ++ options.headers).foldl Table.put Table.empty
  let keyed := if config.apiKey ≠ "" ∧ (Dict.get? set config.apiKeyHeader).getD "" = "" then
    set.put (config.apiKeyHeader, config.apiKey) else set
  if options.body.isSome then keyed.put ("Content-Type", "application/json") else keyed

def init : FetchInit :=
  { url := url config options world, method := options.method.getD .GET, headers := headers config options world
    body := options.body }

def timeoutMs : ℚ := options.timeoutMs.getD config.timeoutMs

/-- `options.idempotent === false ? 0 : this.config.maxRetries` (:187). -/
def maxRetries : ℤ := if options.idempotent = some false then 0 else config.maxRetries

/-- The delay of `backoffDelay` after this attempt. -/
def backoff (attempt : ℕ) : ℚ :=
  backoffDelay attempt config.baseRetryDelayMs config.maxRetryDelayMs (world.random attempt)

/-- `response.headers.get('retry-after')`, empty where there is no such field: the source tells neither of the two
from the other. -/
def Response.retryAfter (response : Response T) : String := (response.headers.lookup "retry-after").getD ""

/-- `retryMs` (:234). -/
def retryMs (attempt : ℕ) (response : Response T) : Option ℚ :=
  if response.retryAfter = "" then some (backoff config world attempt)
  else (parseInt response.retryAfter).map fun (n : ℤ) => (n : ℚ) * 1000

/-- How one pass through the loop ends. -/
inductive Turn (T : Type) where
  | done (result : Except (HttpFailure T) (HttpResponse T))
  /-- Another pass, after a `sleep` or at once. -/
  | again (pause : Option (Option ℚ)) (lastError : HttpFailure T)

/-- The end of the `catch` (:264). -/
def caught (attempt : ℕ) (error : HttpFailure T) : Turn T :=
  .again (if (attempt : ℤ) < maxRetries config options then some (some (backoff config world attempt)) else none) error

/-- One pass through the loop (:192). -/
def turn (attempt : ℕ) : Outcome T → Turn T
  | .networkError message => caught config options world attempt (.thrown message)
  | .aborted =>
    .done (.error (.timeout (world.redactUrl (url config options world)) (timeoutMs config options)
      (requestId options world)))
  | .answered response =>
    match response.data with
    | .error message => caught config options world attempt (.thrown message)
    | .ok data =>
      if response.ok then
        .done (.ok ⟨response.status, response.headers, data, requestId options world⟩)
      else
        let error := HttpFailure.http response.status
          ("HTTP " ++ toString response.status ++ " " ++ response.statusText ++ " from " ++
            world.redactUrl (url config options world)) (requestId options world) data
        if isRetryableStatus response.status ∧ (attempt : ℤ) < maxRetries config options then
          .again (some (retryMs config world attempt response)) error
        else .done (.error error)

/-- The loop (:191): `n` passes are left, and `attempt` is the number of the next one. -/
def attempts : ℕ → ℕ → Option (HttpFailure T) → List (Effect T) × Except (HttpFailure T) (HttpResponse T)
  | 0, _, lastError => ([], .error (lastError.getD (.thrown "Request failed after all retries")))
  | n + 1, attempt, _ =>
    let fetch := Effect.fetch (init config options world) (world.outcomes attempt)
    match turn config options world attempt (world.outcomes attempt) with
    | .done result => ([fetch], result)
    | .again pause error =>
      let rest := attempts n (attempt + 1) (some error)
      (fetch :: (pause.map Effect.sleep).toList ++ rest.1, rest.2)

/-- `request` (:163). -/
def request : List (Effect T) × Except (HttpFailure T) (HttpResponse T) :=
  attempts config options world (maxRetries config options + 1).toNat 0 none

end

end NexoraGateway.Http
