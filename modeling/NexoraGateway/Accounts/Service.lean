import NexoraGateway.Api.Tokens
import NexoraGateway.Async.Pool
import NexoraGateway.Compliance.Types
import NexoraGateway.Settlements.Types

/-!
# The accounts of merchants (`payment-intent/src/auth.service.ts`, `api-gateway/src/routes/auth.ts`)

* `register`, `login`, `validateApiKey`, `regenerateApiKey` — auth.service.ts:95, :165, :203, :240.
* `respond` — what the routes make of them (routes/auth.ts:33-200, middleware/auth.ts:22).

The two hash functions are parameters (`Crypto`); `Db.drawn` is what the source of random bytes has answered, which no
code reads. A request to the database is rejected with some message, which the routes look into, or only its answer is
lost. A request body is an object whose fields are strings where they are there.
-/
namespace NexoraGateway.Accounts

open Async Store
open Api (given generateToken)
open Compliance (charCodes)
open Settlements (includes)

/-- `crypto.pbkdf2Sync(password, salt, …)` and `crypto.createHash('sha256')`. -/
structure Crypto where
  pbkdf2 : String → String → String
  sha256 : String → String

/-- A row of `merchants` (migrations 001 and 009). -/
structure Merchant where
  id : Id
  name : String
  email : Option String
  passwordHash : Option String
  passwordSalt : Option String
  apiKeyHash : Option String
  settlementAsset : String
  settlementChain : String
  settlementAddress : String
  acceptedChains : List String
  acceptedAssets : List String
  feePercentage : ℚ
  kycThreshold : ℚ
  quoteTtlSeconds : Nat
  webhookUrl : Option String
  complianceStatus : String
  createdAt : Time
  updatedAt : Time
  deriving DecidableEq

structure Db where
  merchants : Table Merchant.id
  drawn : List String

/-- `crypto.randomBytes(32).toString('hex')`. -/
structure RandomBytes where
  hex : String
  length : hex.length = 64

def RandomBytes.of (c : Char) : RandomBytes := ⟨String.ofList (List.replicate 64 c), by simp⟩

structure Oracle where
  now : Time := 0
  bytes : RandomBytes := .of '0'
  uuid : Id := ""
  rejects : Option String := none
  lost : Bool := false
  /-- Which of the rows comes first that a query without an order answers. -/
  pick : Nat := 0

inductive Call where
  | now
  | randomUUID
  | randomBytes
  | findByEmail (email : Option String)
  | insert (row : Time → Merchant)
  | findByApiKeyHash (hash : String)
  | setApiKeyHash (id : Id) (hash : String)

def Call.Ans : Call → Type
  | .now => Time
  | .randomUUID => Id
  | .randomBytes => RandomBytes
  | .findByEmail _ | .findByApiKeyHash _ => Option Merchant
  | .insert _ => Merchant
  | .setApiKeyHash .. => Unit

/-- A call that rejects does so with the message of an `Error`. -/
abbrev Answer (a : Call) : Type := Except String a.Ans

def Merchant.setApiKeyHash (hash : String) (now : Time) (row : Merchant) : Merchant :=
  { row with apiKeyHash := some hash, updatedAt := now }

theorem setApiKeyHash_id (hash : String) (now : Time) (row : Merchant) : (row.setApiKeyHash hash now).id = row.id := rfl

/-- The `INSERT`; `email` is `UNIQUE`. -/
def insertRow (row : Merchant) (db : Db) : Option Db :=
  if ∃ other ∈ db.merchants.rows, row.email.isSome = true ∧ other.email = row.email then none
  else (db.merchants.insert? row).map fun merchants => { db with merchants }

/-- `SELECT … WHERE email = $1`; nothing equals `NULL`. -/
def Db.findByEmail (db : Db) (email : Option String) : Option Merchant :=
  email.bind fun email => db.merchants.rows.find? (·.email = some email)

/-- `UPDATE merchants SET api_key_hash`. -/
def Db.setApiKeyHash (db : Db) (id : Id) (hash : String) (now : Time) : Db :=
  { db with
    merchants := db.merchants.updateWhere (·.id = id) (Merchant.setApiKeyHash hash now) (setApiKeyHash_id hash now) }

def handle : Handler Call Answer Oracle Db
  | .now, o => fun db => (.ok o.now, db)
  | .randomUUID, o => fun db => (.ok o.uuid, db)
  | .randomBytes, o => fun db => (.ok o.bytes, { db with drawn := db.drawn ++ [o.bytes.hex] })
  | .findByEmail email, o => fun db => request o.rejects o.lost (db.findByEmail email, db) db
  | .insert row, o => fun db =>
    match insertRow (row o.now) db with
    | some db' => request o.rejects o.lost (row o.now, db') db
    | none => (.error "duplicate key value violates unique constraint", db)
  | .findByApiKeyHash hash, o => fun db =>
    let rows := db.merchants.rows.filter (·.apiKeyHash = some hash)
    request o.rejects o.lost (rows[o.pick % rows.length]?, db) db
  | .setApiKeyHash id hash, o => fun db => request o.rejects o.lost ((), db.setApiKeyHash id hash o.now) db

abbrev Task (α : Type) : Type := Prog Call Answer String α

namespace Task
def now : Task Time := Prog.await Call.now
def randomUUID : Task Id := Prog.await Call.randomUUID
def randomBytes : Task RandomBytes := Prog.await Call.randomBytes
def findByEmail (email : Option String) : Task (Option Merchant) := Prog.await (Call.findByEmail email)
def insert (row : Time → Merchant) : Task Merchant := Prog.await (Call.insert row)
def findByApiKeyHash (hash : String) : Task (Option Merchant) := Prog.await (Call.findByApiKeyHash hash)
def setApiKeyHash (id : Id) (hash : String) : Task Unit := Prog.await (Call.setApiKeyHash id hash)
end Task

structure RegisterRequest where
  name : Option String := none
  email : Option String := none
  password : Option String := none
  settlementAsset : Option String := none
  settlementChain : Option String := none
  settlementAddress : Option String := none
  acceptedChains : Option (List String) := none
  acceptedAssets : Option (List String) := none
  webhookUrl : Option String := none
  deriving DecidableEq

structure LoginRequest where
  email : Option String := none
  password : Option String := none
  deriving DecidableEq

structure AuthResponse where
  merchantId : Id
  name : String
  email : Option String
  apiKey : String
  token : String
  deriving DecidableEq

/-! ## The service -/

variable (crypto : Crypto)

def apiKeyOf (hex : String) : String := "nxt_" ++ hex

/-- auth.service.ts:68. -/
def generateApiKey : Task String := do
  let bytes ← Task.randomBytes
  return apiKeyOf bytes.hex

/-- The row that `register` inserts, with the time of the statement. -/
def newMerchant (data : RegisterRequest) (id : Id) (name email passwordHash salt apiKeyHash : String) (now : Time) :
    Merchant :=
  { id, name, email := some email, passwordHash := some passwordHash, passwordSalt := some salt
    apiKeyHash := some apiKeyHash
    settlementAsset := (given data.settlementAsset).getD "USDC"
    settlementChain := (given data.settlementChain).getD "1"
    settlementAddress := (given data.settlementAddress).getD "0x0000000000000000000000000000000000000000"
    acceptedChains := data.acceptedChains.getD ["1", "8453", "42161", "137"]
    acceptedAssets := data.acceptedAssets.getD ["USDC", "USDT", "ETH"]
    feePercentage := 1, kycThreshold := 10000, quoteTtlSeconds := 300
    webhookUrl := given data.webhookUrl, complianceStatus := "PENDING", createdAt := now, updatedAt := now }

/-- `generateToken`, which reads the clock twice. -/
def tokenFor (merchantId : Id) : Task String := do
  let iat ← Task.now
  let exp ← Task.now
  return generateToken iat exp merchantId

/-- auth.service.ts:95. -/
def register (data : RegisterRequest) : Task AuthResponse := do
  let existing ← Task.findByEmail data.email
  if existing.isSome then throw "Email already registered"
  match given data.name, given data.email, given data.password with
  | some name, some email, some password =>
    if (charCodes password).length < 8 then throw "Password must be at least 8 characters"
    let salt ← Task.randomBytes
    let apiKey ← generateApiKey
    let merchantId ← Task.randomUUID
    let merchant ← Task.insert
      (newMerchant data merchantId name email (crypto.pbkdf2 password salt.hex) salt.hex (crypto.sha256 apiKey))
    let token ← tokenFor merchant.id
    return { merchantId := merchant.id, name := merchant.name, email := merchant.email, apiKey, token }
  | _, _, _ => throw "Name, email, and password are required"

/-- auth.service.ts:165. A salt that is not there is drawn anew. -/
def login (data : LoginRequest) : Task AuthResponse := do
  match given data.email, given data.password with
  | some email, some password =>
    let some merchant ← Task.findByEmail (some email) | throw "Invalid email or password"
    let salt ← match given merchant.passwordSalt with
      | some salt => pure salt
      | none => RandomBytes.hex <$> Task.randomBytes
    if some (crypto.pbkdf2 password salt) ≠ merchant.passwordHash then throw "Invalid email or password"
    let token ← tokenFor merchant.id
    return { merchantId := merchant.id, name := merchant.name, email := merchant.email, apiKey := "", token }
  | _, _ => throw "Email and password are required"

/-- auth.service.ts:203. -/
def validateApiKey (apiKey : String) : Task (Option Merchant) := Task.findByApiKeyHash (crypto.sha256 apiKey)

/-- auth.service.ts:240. -/
def regenerateApiKey (merchantId : Id) : Task String := do
  let apiKey ← generateApiKey
  Task.setApiKeyHash merchantId (crypto.sha256 apiKey)
  return apiKey

/-! ## The routes -/

inductive Request where
  | register (body : RegisterRequest)
  | login (body : LoginRequest)
  | regenerateKey (apiKey : Option String)
  /-- A request to a route behind the middleware, with an API key. -/
  | guarded (apiKey : String)
  deriving DecidableEq

inductive Reply where
  | created (response : AuthResponse)
  | session (response : AuthResponse)
  | key (apiKey : String)
  | admitted (merchantId : Id)
  | refused (status : Nat) (code message : String)
  deriving DecidableEq

def registerFailed (message : String) : Reply :=
  if includes message "already registered" then .refused 409 "EMAIL_EXISTS" message
  else if includes message "required" || includes message "at least" then .refused 400 "VALIDATION_ERROR" message
  else .refused 500 "REGISTRATION_FAILED" "Failed to register merchant"

def loginFailed (message : String) : Reply :=
  if includes message "Invalid" then .refused 401 "INVALID_CREDENTIALS" message
  else .refused 500 "LOGIN_FAILED" "Failed to login"

def respond : Request → Task Reply
  | .register body => (Reply.created <$> register crypto body).tryCatch fun message => pure (registerFailed message)
  | .login body => (Reply.session <$> login crypto body).tryCatch fun message => pure (loginFailed message)
  | .regenerateKey apiKey => do
    let some apiKey := given apiKey | return .refused 401 "UNAUTHORIZED" "API key required"
    let some merchant ← validateApiKey crypto apiKey | return .refused 401 "INVALID_API_KEY" "Invalid API key"
    let newApiKey ← regenerateApiKey crypto merchant.id
    return .key newApiKey
  | .guarded apiKey => do
    let unauthorized := Reply.refused 401 "UNAUTHORIZED"
      "Valid API key or token required. Provide X-API-Key header or Authorization: Bearer <token>"
    let some apiKey := given (some apiKey) | return unauthorized
    let some merchant ← validateApiKey crypto apiKey | return unauthorized
    return .admitted merchant.id

/-- A request with the reply to it. -/
def answered (request : Request) : Task (Request × Reply) := do
  let reply ← respond crypto request
  return (request, reply)

/-- A database without accounts. -/
def noAccounts : Pool Call Answer String (Request × Reply) Db := ⟨⟨.empty, []⟩, []⟩

/-! ## What a call does -/

section
variable {db db' : Db}

/-- A call fails without effect, or it is carried out; its answer may be lost then. -/
inductive Effect (db : Db) : (a : Call) → Answer a → Db → Prop
  | failed (a : Call) (e : String) : Effect db a (.error e) db
  | now (t : Time) : Effect db .now (.ok t) db
  | uuid (id : Id) : Effect db .randomUUID (.ok id) db
  | drew (bytes : RandomBytes) : Effect db .randomBytes (.ok bytes) { db with drawn := db.drawn ++ [bytes.hex] }
  | foundByEmail {email : Option String} (r : Answer (.findByEmail email))
      (hr : ∀ found, r = .ok found → found = db.findByEmail email) : Effect db (.findByEmail email) r db
  | foundByKey {hash : String} (r : Answer (.findByApiKeyHash hash))
      (hr : ∀ row, r = .ok (some row) → row ∈ db.merchants.rows ∧ row.apiKeyHash = some hash) :
    Effect db (.findByApiKeyHash hash) r db
  | inserted {row : Time → Merchant} {now : Time} {db' : Db} (hinsert : insertRow (row now) db = some db')
      (r : Answer (.insert row)) (hr : ∀ made, r = .ok made → made = row now) : Effect db (.insert row) r db'
  | rekeyed (id : Id) (hash : String) (now : Time) (r : Answer (.setApiKeyHash id hash)) :
    Effect db (.setApiKeyHash id hash) r (db.setApiKeyHash id hash now)

/-- A request that was carried out has the answer, if it has one. -/
theorem effect_request {a : Call} {o : Oracle} {result : a.Ans × Db}
    (h : ∀ r : Answer a, (∀ x, r = .ok x → x = result.1) → Effect db a r result.2) :
    Effect db a (request o.rejects o.lost result db).1 (request o.rejects o.lost result db).2 := by
  unfold request
  cases o.rejects with
  | none => exact h _ fun x hx => (Except.ok.inj hx).symm
  | some e =>
    dsimp only
    split
    · exact h _ nofun
    · exact .failed a e

theorem handle_effect (a : Call) (o : Oracle) (db : Db) : Effect db a (handle a o db).1 (handle a o db).2 := by
  cases a with
  | now => exact .now o.now
  | randomUUID => exact .uuid o.uuid
  | randomBytes => exact .drew o.bytes
  | findByEmail email => exact effect_request fun r hr => .foundByEmail r hr
  | insert row =>
    simp only [handle]
    cases hinsert : insertRow (row o.now) db with
    | none => exact .failed _ _
    | some db' => exact effect_request fun r hr => .inserted hinsert r hr
  | findByApiKeyHash hash =>
    refine effect_request fun r hr => .foundByKey r fun row hrow => ?_
    have hmem := List.mem_of_getElem? (hr _ hrow).symm
    simpa using hmem
  | setApiKeyHash id hash => exact effect_request fun r _ => .rekeyed id hash o.now r

theorem insertRow_eq_some {row : Merchant} (h : insertRow row db = some db') :
    (∀ other ∈ db.merchants.rows, row.email.isSome = true → other.email ≠ row.email) ∧
      db.merchants.find? row.id = none ∧ db'.merchants.rows = db.merchants.rows ++ [row] ∧ db'.drawn = db.drawn := by
  unfold insertRow at h
  split at h
  · cases h
  · rename_i hemail
    obtain ⟨merchants, hins, rfl⟩ := Option.map_eq_some_iff.1 h
    refine ⟨fun other hother hsome heq => hemail ⟨other, hother, hsome, heq⟩, ?_, Table.rows_insert? hins, rfl⟩
    exact Table.insert?_isSome.1 (by rw [hins]; rfl)

theorem mem_setApiKeyHash {id : Id} {hash : String} {now : Time} {row : Merchant} :
    row ∈ (db.setApiKeyHash id hash now).merchants.rows ↔
      ∃ old ∈ db.merchants.rows, (if old.id = id then old.setApiKeyHash hash now else old) = row := by
  simp [Db.setApiKeyHash, Table.mem_updateWhere]

/-- What an account keeps: all but its API key. -/
def SameAccount (row row' : Merchant) : Prop :=
  row' = { row with apiKeyHash := row'.apiKeyHash, updatedAt := row'.updatedAt }

theorem SameAccount.refl (row : Merchant) : SameAccount row row := rfl

theorem SameAccount.trans {row row' row'' : Merchant} (h : SameAccount row row') (h' : SameAccount row' row'') :
    SameAccount row row'' := by
  unfold SameAccount at h h' ⊢
  rw [h', h]

theorem sameAccount_setApiKeyHash (row : Merchant) (hash : String) (now : Time) :
    SameAccount row (row.setApiKeyHash hash now) := rfl

/-- Accounts stay. -/
theorem account_kept {a : Call} {r : Answer a} (h : Effect db a r db') {row : Merchant}
    (hrow : row ∈ db.merchants.rows) : ∃ row' ∈ db'.merchants.rows, SameAccount row row' := by
  cases h with
  | inserted hinsert r hr =>
    refine ⟨row, ?_, .refl row⟩
    rw [(insertRow_eq_some hinsert).2.2.1]
    exact List.mem_append_left _ hrow
  | rekeyed id hash now r =>
    refine ⟨_, mem_setApiKeyHash.2 ⟨row, hrow, rfl⟩, ?_⟩
    split
    · exact sameAccount_setApiKeyHash row hash now
    · exact .refl row
  | _ => exact ⟨row, hrow, .refl row⟩

end

end NexoraGateway.Accounts
