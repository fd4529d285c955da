import NexoraGateway.Async.Knowledge
import NexoraGateway.Intent.Attempts
import NexoraGateway.Intent.Backoff
import NexoraGateway.Text.Dates
import NexoraGateway.Text.NameOrder

/-!
# The signature of a webhook (webhook-delivery.service.ts:46-131)

`deliverWebhook` signs the text of `{intent_id, event_type, data}` as JavaScript enumerates it, and records the payload
in a `JSONB` column, which keeps the names of an object in an order of its own. What is sent is the text of what is read
back. The MAC is any function of the text; how a number is written is a parameter, for a number that was stored is
written as before.

* `verifies_iff` — when the merchant gets the signature from the body.
* `sent_signed` — every request carries the payload of a delivery, and its signature.
* `signatures_verify_iff` — what this comes to for the requests of all runs.
-/
open Text (Doc Literal isLiteral)

namespace NexoraGateway

mutual

/-- A value as `JSON.stringify` writes it. -/
def Json.doc (literal : ℚ → Literal) : Json → Doc
  | null => .null
  | bool b => .bool b
  | num q => .num (literal q)
  | str s => .str s
  | date t => .str (Text.toISOString t)
  | arr xs => .arr (Json.docs literal xs)
  | obj fields => .obj (Json.members literal fields)

def Json.docs (literal : ℚ → Literal) : List Json → List Doc
  | [] => []
  | x :: xs => Json.doc literal x :: Json.docs literal xs

def Json.members (literal : ℚ → Literal) : List (String × Json) → List (String × Doc)
  | [] => []
  | (name, x) :: fields => (name, Json.doc literal x) :: Json.members literal fields

end

namespace Intent

open Async Store

/-- A JavaScript object: no two properties have one name, at any depth. -/
structure DataObject where
  fields : Payload
  distinct : ∀ literal, ((Json.obj fields).doc literal).Distinct

/-- What `deliverWebhook` records (:52). -/
def webhookPayload (intentId : Id) (eventType : EventType) (state : IntentState) (timestamp : Time) (data : Payload) :
    Payload :=
  [("intent_id", .str intentId), ("event_type", .str eventType.name), ("state", .str state.name),
   ("timestamp", .date timestamp), ("data", .obj data), ("signature", generateSignature intentId eventType data)]

section
variable (literal : ℚ → Literal) (hmac : String → String)

/-- `createHmac('sha256', secret).update(JSON.stringify(signed)).digest('hex')` (:76). -/
def digest (signed : Json) : String := hmac (String.ofList (signed.doc literal).stringify)

/-- The `payload` that is inserted (:92). -/
def inserted (payload : Payload) : Doc :=
  .obj (payload.map fun (name, x) =>
    (name, if name = "signature" then .str (digest literal hmac x) else x.doc literal))

/-- The body of the request (:129), if PostgreSQL takes the payload. -/
def body? (payload : Payload) : Option (List Char) := (inserted literal hmac payload).enumerate.jsonb?.map Doc.stringify

/-- `X-Webhook-Signature` (:125). -/
def signatureHeader (headers : List (String × Json)) : String :=
  match headers.lookup "X-Webhook-Signature" with
  | some (.str s) => s
  | some signed => digest literal hmac signed
  | none => ""

/-- The merchant's digest of `{intent_id, event_type, data}`, with the values that the body has. -/
def recomputed? (body : Doc) : Option String := do
  let intentId ← body.get? "intent_id"
  let eventType ← body.get? "event_type"
  let data ← body.get? "data"
  return hmac (String.ofList
    (Doc.obj [("intent_id", intentId), ("event_type", eventType), ("data", data)]).compact)

/-- The same, with the three members as they follow each other in the body. -/
def recomputedInBody? : Doc → Option String
  | .obj members => some (hmac (String.ofList
      (Doc.obj (members.filter fun m => m.1 ∈ ["intent_id", "event_type", "data"])).compact))
  | _ => none

end

/-- Whatever function the MAC is, the merchant gets what the header says. -/
def Verifies (literal : ℚ → Literal) (recompute? : (String → String) → Doc → Option String)
    (headers : List (String × Json)) (payload : Payload) : Prop :=
  ∀ hmac text, body? literal hmac payload = some text → ∀ body : Doc, body.compact = text →
    recompute? hmac body = some (signatureHeader literal hmac headers)

/-- A request that a run of deliveries and retries sends, which began with no delivery recorded. -/
def Sent (headers : List (String × Json)) (payload : Payload) : Prop :=
  ∃ (db : Db) (cs : List (Choice Call Answer IntentError Unit Oracle)) (i : Nat) (url : String),
    db.deliveries.rows = [] ∧ (∀ p, .spawn p ∈ cs → Delivers p) ∧
    (Pool.exec handle (⟨db, []⟩ : Service) cs).pending i = some (.fetch url headers payload)

variable {literal : ℚ → Literal} {hmac : String → String} {intentId : Id} {eventType : EventType} {state : IntentState}
  {timestamp : Time} {data : Payload} {headers : List (String × Json)}

/-! ## The text that is signed and the body that is sent -/

theorem noZero_padded (width n : Nat) : Doc.noZero (Text.padded width n) = true := by
  rw [Doc.noZero, Text.padded, String.toList_ofList, List.all_append, Bool.and_eq_true, List.all_eq_true,
    List.all_eq_true]
  refine ⟨fun c hc => ?_, fun c hc => ?_⟩
  · rw [List.eq_of_mem_replicate hc]
    decide
  · have hdigit : c.isDigit = true := Nat.isDigit_of_mem_toDigits (by decide) (by decide) hc
    refine decide_eq_true fun hzero => ?_
    rw [← Char.ofNat_toNat c, hzero] at hdigit
    cases hdigit

/-- A date is written with digits and signs. -/
theorem noZero_toISOString (t : Time) : Doc.noZero (Text.toISOString t) = true := by
  have hyear (year : ℤ) : Doc.noZero (if 0 ≤ year ∧ year ≤ 9999 then Text.padded 4 year.toNat
      else (if year < 0 then "-" else "+") ++ Text.padded 6 year.natAbs) = true := by
    split
    · exact noZero_padded 4 _
    · rw [Doc.noZero_append, noZero_padded, Bool.and_true]
      split <;> decide
  have hsigns : ∀ sign ∈ ["-", "T", ":", ".", "Z"], Doc.noZero sign = true := by decide
  unfold Text.toISOString
  simp [Doc.noZero_append, noZero_padded, hyear, hsigns]

/-- The members of the payload, in the order of the code. -/
def payloadMembers (literal : ℚ → Literal) (hmac : String → String) (intentId : Id) (eventType : EventType)
    (state : IntentState) (timestamp : Time) (data : Payload) : List (String × Doc) :=
  [("intent_id", .str intentId), ("event_type", .str eventType.name), ("state", .str state.name),
   ("timestamp", .str (Text.toISOString timestamp)), ("data", (Json.obj data).doc literal),
   ("signature", .str (digest literal hmac (generateSignature intentId eventType data)))]

theorem inserted_webhookPayload :
    inserted literal hmac (webhookPayload intentId eventType state timestamp data) =
      .obj (payloadMembers literal hmac intentId eventType state timestamp data) := by
  simp [inserted, webhookPayload, payloadMembers, Json.doc]

/-- The document of `{intent_id, event_type, data}`. -/
def signedDoc (intentId : Id) (eventType : EventType) (data : Doc) : Doc :=
  .obj [("intent_id", .str intentId), ("event_type", .str eventType.name), ("data", data)]

/-- No name of the three is an index, so they are signed in this order. -/
theorem stringify_generateSignature : ((generateSignature intentId eventType data).doc literal).stringify =
    (signedDoc intentId eventType ((Json.obj data).doc literal).enumerate).compact := by
  have hdoc : (generateSignature intentId eventType data).doc literal =
      signedDoc intentId eventType ((Json.obj data).doc literal) := rfl
  rw [hdoc, Doc.stringify, Doc.enumerate, signedDoc, Doc.sortNames_obj, sortBy_eq_self]
  · rfl
  · have hnames : ["intent_id", "event_type", "data"].Pairwise fun a b => Doc.indexKey a ≤ Doc.indexKey b := by
      decide +kernel
    exact (List.pairwise_map (f := Prod.fst) (l := [("intent_id", _), ("event_type", _), ("data", _)])).1 hnames

/-- PostgreSQL takes a payload unless there is a zero character in the intent's id, the data or the digest. -/
theorem storable_payload : (Doc.obj (payloadMembers literal hmac intentId eventType state timestamp data)).storable =
    (Doc.noZero intentId && ((Json.obj data).doc literal).storable &&
      Doc.noZero (digest literal hmac (generateSignature intentId eventType data))) := by
  have hnames : ∀ name ∈ ["intent_id", "event_type", "state", "timestamp", "data", "signature"],
      Doc.noZero name = true := by decide
  have hevent : Doc.noZero eventType.name = true := by cases eventType <;> decide
  have hstate : Doc.noZero state.name = true := by cases state <;> decide
  have hdate : Doc.noZero (Text.toISOString timestamp) = true := noZero_toISOString timestamp
  rw [Doc.storable, Doc.everyString_obj]
  simp [payloadMembers, Doc.everyString, hnames, hevent, hstate, hdate, Doc.storable, Bool.and_assoc]

/-- A document after it was read back and enumerated again. -/
def readBack (d : Doc) : Doc := ((d.sortNames Doc.indexKey).sortNames Doc.jsonbKey).sortNames Doc.indexKey

/-- The members of the body, as they follow each other there. -/
def bodyMembers (members : List (String × Doc)) : List (String × Doc) :=
  Doc.mapValues readBack (sortBy (fun m => Doc.indexKey m.1) (sortBy (fun m => Doc.jsonbKey m.1)
    (sortBy (fun m => Doc.indexKey m.1) members)))

theorem stringify_readBack (members : List (String × Doc)) :
    ((Doc.obj members).enumerate.sortNames Doc.jsonbKey).stringify = (Doc.obj (bodyMembers members)).compact := by
  rw [Doc.stringify, Doc.enumerate, Doc.enumerate, Doc.sortNames_resorted]
  rfl

/-- **The body** is the payload, read back from the column, with the members in the order of their names. -/
theorem body?_eq_some_iff {text : List Char} :
    body? literal hmac (webhookPayload intentId eventType state timestamp data) = some text ↔
      (Doc.obj (payloadMembers literal hmac intentId eventType state timestamp data)).storable = true ∧
        text =
          (Doc.obj (bodyMembers (payloadMembers literal hmac intentId eventType state timestamp data))).compact := by
  have hstorable : (Doc.obj (payloadMembers literal hmac intentId eventType state timestamp data)).enumerate.storable =
      (Doc.obj (payloadMembers literal hmac intentId eventType state timestamp data)).storable :=
    Doc.everyString_sortNames _
  rw [body?, inserted_webhookPayload, Doc.jsonb?, hstorable]
  split
  · rename_i hpayload
    rw [Option.map_some, stringify_readBack, Option.some.injEq, and_iff_right hpayload, eq_comm]
  · rename_i hpayload
    exact iff_of_false (fun h => nomatch h) fun h => hpayload h.1

/-- What the merchant finds by name. -/
theorem get?_bodyMembers (name : String) :
    (Doc.obj (bodyMembers (payloadMembers literal hmac intentId eventType state timestamp data))).get? name =
      ((Doc.obj (payloadMembers literal hmac intentId eventType state timestamp data)).get? name).map readBack := by
  have hnodup : ((payloadMembers literal hmac intentId eventType state timestamp data).map Prod.fst).Nodup := by
    change ["intent_id", "event_type", "state", "timestamp", "data", "signature"].Nodup
    decide
  exact Doc.get?_mapValues hnodup (sortBy_perm.trans (sortBy_perm.trans sortBy_perm)) name

/-- The data come before the two others. -/
theorem bodyMembers_names :
    ((bodyMembers (payloadMembers literal hmac intentId eventType state timestamp data)).filter
      fun m => m.1 ∈ ["intent_id", "event_type", "data"]).map Prod.fst = ["data", "intent_id", "event_type"] := by
  have hfst {δ : Type} [LinearOrder δ] (k : String → δ) (l : List (String × Doc)) :
      (sortBy (fun m => k m.1) l).map Prod.fst = sortBy k (l.map Prod.fst) := map_sortBy fun _ => rfl
  have hfilter (l : List (String × Doc)) : (l.filter fun m => m.1 ∈ ["intent_id", "event_type", "data"]).map Prod.fst =
      (l.map Prod.fst).filter fun name => name ∈ ["intent_id", "event_type", "data"] := by
    rw [List.filter_map]
    rfl
  rw [hfilter, bodyMembers, Doc.map_fst_mapValues, hfst, hfst, hfst]
  change (sortBy Doc.indexKey (sortBy Doc.jsonbKey (sortBy Doc.indexKey
    ["intent_id", "event_type", "state", "timestamp", "data", "signature"]))).filter _ = _
  decide +kernel

/-- A MAC that tells a text from all others. -/
def only (text : List Char) : String → String := fun t => if t = String.ofList text then "a" else "b"

theorem only_eq_iff {text text' : List Char} : only text (String.ofList text') = only text (String.ofList text) ↔
    text' = text := by
  have hself : only text (String.ofList text) = "a" := if_pos rfl
  rw [hself]
  constructor
  · intro h
    unfold only at h
    split at h
    · rename_i heq
      exact String.ofList_injective heq
    · exact absurd h (by decide)
  · rintro rfl
    exact hself

theorem noZero_only (text : List Char) (t : String) : Doc.noZero (only text t) = true := by
  unfold only
  split <;> decide

/-- The text that is signed. -/
def signedText (literal : ℚ → Literal) (intentId : Id) (eventType : EventType) (data : Payload) : List Char :=
  (signedDoc intentId eventType ((Json.obj data).doc literal).enumerate).compact

/-- What the header says. -/
theorem signatureHeader_eq
    (hheaders : headers.lookup "X-Webhook-Signature" = some (generateSignature intentId eventType data)) :
    signatureHeader literal hmac headers = hmac (String.ofList (signedText literal intentId eventType data)) := by
  rw [signatureHeader, hheaders]
  change digest literal hmac (generateSignature intentId eventType data) = _
  rw [digest, stringify_generateSignature, signedText]

section
variable (literal hmac intentId eventType state timestamp data)

/-- The three members, as the merchant finds them. -/
theorem get?_payloadMembers :
    let payload := Doc.obj (payloadMembers literal hmac intentId eventType state timestamp data)
    payload.get? "intent_id" = some (.str intentId) ∧ payload.get? "event_type" = some (.str eventType.name) ∧
      payload.get? "data" = some ((Json.obj data).doc literal) := by
  refine ⟨?_, ?_, ?_⟩ <;> simp [Doc.get?, payloadMembers, List.lookup_cons]

end

/-- What the merchant gets. -/
theorem recomputed?_bodyMembers :
    recomputed? hmac (.obj (bodyMembers (payloadMembers literal hmac intentId eventType state timestamp data))) =
      some (hmac (String.ofList (signedDoc intentId eventType (readBack ((Json.obj data).doc literal))).compact)) := by
  obtain ⟨hintent, hevent, hdata⟩ := get?_payloadMembers literal hmac intentId eventType state timestamp data
  rw [recomputed?, get?_bodyMembers, get?_bodyMembers, get?_bodyMembers, hintent, hevent, hdata]
  simp only [Option.map_some, Option.bind_eq_bind, Option.bind_some, readBack, Doc.sortNames, signedDoc]
  rfl

/-- Which payloads PostgreSQL takes, whatever the digest is. -/
def Storable (literal : ℚ → Literal) (intentId : Id) (data : Payload) : Prop :=
  Doc.noZero intentId = true ∧ ((Json.obj data).doc literal).storable = true

theorem storable_of_body? {text : List Char}
    (h : body? literal hmac (webhookPayload intentId eventType state timestamp data) = some text) :
    Storable literal intentId data := by
  have hpayload := (body?_eq_some_iff.1 h).1
  rw [storable_payload, Bool.and_eq_true, Bool.and_eq_true] at hpayload
  exact hpayload.1

/-- A MAC with no zero character leaves it to the rest. -/
theorem body?_only (hstorable : Storable literal intentId data) (signed : List Char) :
    body? literal (only signed) (webhookPayload intentId eventType state timestamp data) =
      some (Doc.obj (bodyMembers
        (payloadMembers literal (only signed) intentId eventType state timestamp data))).compact := by
  rw [body?_eq_some_iff, storable_payload, hstorable.1, hstorable.2, digest, noZero_only]
  exact ⟨rfl, rfl⟩

/-- **The merchant gets the signature** just when the names in the data are in order. -/
theorem verifies_iff
    (hheaders : headers.lookup "X-Webhook-Signature" = some (generateSignature intentId eventType data))
    (hdata : ((Json.obj data).doc literal).Distinct) :
    Verifies literal recomputed? headers (webhookPayload intentId eventType state timestamp data) ↔
      (Storable literal intentId data → ((Json.obj data).doc literal).InOrder) := by
  rw [← Doc.enumerate_jsonb_iff hdata]
  constructor
  · intro h hstorable
    -- a MAC that tells the text that is signed from all others
    have hmerchant := h _ _ (body?_only hstorable (signedText literal intentId eventType data)) _ rfl
    rw [recomputed?_bodyMembers, signatureHeader_eq hheaders, Option.some.injEq, only_eq_iff] at hmerchant
    have hmembers := Doc.obj.inj (Doc.compact_injective hmerchant)
    simp only [List.cons.injEq, Prod.mk.injEq, true_and, and_true] at hmembers
    exact hmembers
  · intro h hmac text htext body hbody
    have hdoc := h (storable_of_body? htext)
    have hbody := Doc.compact_injective (hbody.trans (body?_eq_some_iff.1 htext).2)
    have hread : readBack ((Json.obj data).doc literal) = ((Json.obj data).doc literal).enumerate := hdoc
    rw [hbody, recomputed?_bodyMembers, signatureHeader_eq hheaders, hread, signedText]

/-- **As the members follow each other in the body,** they give another text than the one that was signed. -/
theorem verifiesInBody_iff
    (hheaders : headers.lookup "X-Webhook-Signature" = some (generateSignature intentId eventType data)) :
    Verifies literal recomputedInBody? headers (webhookPayload intentId eventType state timestamp data) ↔
      ¬ Storable literal intentId data := by
  constructor
  · intro h hstorable
    have hmerchant := h _ _ (body?_only hstorable (signedText literal intentId eventType data)) _ rfl
    rw [recomputedInBody?, signatureHeader_eq hheaders, Option.some.injEq, only_eq_iff] at hmerchant
    have hnames := congrArg (List.map Prod.fst) (Doc.obj.inj (Doc.compact_injective hmerchant))
    rw [bodyMembers_names] at hnames
    have hne : "data" ≠ "intent_id" := by decide
    exact hne (List.cons.inj hnames).1
  · intro h hmac text htext
    exact absurd (storable_of_body? htext) h

/-! ## What is sent -/

variable {o : Oracle} {db : Db} {told : Payload → Prop}

/-- What is recorded and what is sent; `told` holds of the payloads of the deliveries that were begun. -/
def forwarding (told : Payload → Prop) : Knowledge Call Answer Db Empty where
  Holds _ _ := True
  ok _
    | .upsertDelivery _ _ _ payload => told payload
    | .fetch _ headers body =>
      told body ∧ headers.lookup "X-Webhook-Signature" = some ((body.get? "signature").getD (.str ""))
    | _ => True
  rely
    | .getDelivery _, .ok (some d) => told d.payload
    | _, _ => True
  learns _ _ := []

theorem upsertDelivery_rows {intentId : Id} {eventType : EventType} {url : String} {payload : Payload}
    {d : WebhookDelivery} (hd : d ∈ (upsertDelivery o intentId eventType url payload db).2.deliveries.rows) :
    d ∈ db.deliveries.rows ∨ d.payload = payload := by
  cases hout : (upsertDelivery o intentId eventType url payload db).1 with
  | error e =>
    rw [show (upsertDelivery o intentId eventType url payload db).2 = db from atomically_error hout] at hd
    exact .inl hd
  | ok id =>
    rcases upsertDelivery_answered hout with ⟨deliveries, -, hinsert, hdb⟩ | ⟨d', -, -, hdb⟩
    · rw [hdb] at hd
      change d ∈ deliveries.rows at hd
      rw [Table.rows_insert? hinsert, List.mem_append, List.mem_singleton] at hd
      refine hd.imp_right ?_
      rintro rfl
      rfl
    · rw [hdb] at hd
      have hd : d ∈ (db.deliveries.updateWhere _ (excluded o url payload) (excluded_key o url payload)).rows := hd
      obtain ⟨d'', hd'', rfl⟩ := Table.mem_updateWhere.1 hd
      split
      · exact .inr rfl
      · exact .inl hd''

/-- One call: the rows have the payloads of deliveries. -/
theorem handle_told {facts : List Empty} {a : Call} (hrows : ∀ d ∈ db.deliveries.rows, told d.payload)
    (hok : (forwarding told).ok facts a) : ∀ d ∈ (handle a o db).2.deliveries.rows, told d.payload := by
  intro d hd
  have heffect := handle_deliveries a o db
  cases a with
  | upsertDelivery intentId eventType url payload =>
    rcases upsertDelivery_rows hd with hold | hnew
    · exact hrows d hold
    · rw [hnew]
      exact hok
  | updateDeliveryStatus id status attemptCount nextRetryAt lastError =>
    generalize (handle _ o db).1 = r at heffect
    generalize (handle _ o db).2.deliveries = t at heffect hd
    cases heffect with
    | unchanged => exact hrows d hd
    | attempted ho =>
      obtain ⟨d', hd', rfl⟩ := Table.mem_updateWhere.1 hd
      split <;> exact hrows d' hd'
  | _ =>
    generalize (handle _ o db).1 = r at heffect
    generalize (handle _ o db).2.deliveries = t at heffect hd
    cases heffect
    exact hrows d hd

theorem handle_forwards (a : Call) (hrows : ∀ d ∈ db.deliveries.rows, told d.payload) :
    (forwarding told).rely a (handle a o db).1 := by
  cases a with
  | getDelivery id =>
    cases hout : (handle (.getDelivery id) o db).1 with
    | error e => trivial
    | ok found =>
      cases found with
      | none => trivial
      | some d => exact hrows d ((getDelivery_ok hout).2 d rfl).1
  | _ => trivial

theorem attemptDelivery_forwards (deliveryId : Id) (facts : List Empty) :
    (forwarding told).Justifies facts (attemptDelivery deliveryId) := by
  refine Prog.Obeys.bind (Prog.obeys_await.2 ⟨trivial, fun r hr => ?_⟩)
  have hupdate (status : DeliveryStatus) (attemptCount : Nat) (nextRetryAt : Option Time) (lastError : Option String)
      (facts : List Empty) : (forwarding told).Justifies facts
        (Task.updateDeliveryStatus deliveryId status attemptCount nextRetryAt lastError) :=
    Knowledge.justifies_await trivial
  have hnow (facts : List Empty) : (forwarding told).Justifies facts Task.now := Knowledge.justifies_await trivial
  rcases r with e | _ | delivery
  · trivial
  · trivial
  · show (forwarding told).Justifies _ _
    dsimp only
    split
    · exact Knowledge.justifies_bind (hnow _) fun now facts' _ => hupdate _ _ _ _ facts'
    · refine Knowledge.justifies_tryCatch ?_ fun error facts' _ => ?_
      · -- the payload is sent as it was read
        refine Knowledge.justifies_bind (Knowledge.justifies_await ⟨hr, rfl⟩) fun r facts' _ => ?_
        obtain ⟨status, statusText⟩ := r
        dsimp only
        split
        · exact hupdate _ _ _ _ facts'
        · trivial
      · split
        · exact hupdate _ _ _ _ facts'
        · exact Knowledge.justifies_bind (hnow _) fun now facts'' _ => hupdate _ _ _ _ facts''

theorem Delivers.forwards {p : Task Unit} (h : Delivers p)
    (htold : ∀ (intent : PaymentIntent) eventType data timestamp, p = Intent.deliverWebhook intent eventType data →
      told (webhookPayload intent.id eventType intent.state timestamp data)) :
    (forwarding told).Justifies [] p := by
  cases h with
  | deliverWebhook intent eventType data =>
    refine Knowledge.justifies_bind (Knowledge.justifies_await trivial) fun merchant facts _ => ?_
    dsimp only
    split
    · trivial
    · refine Knowledge.justifies_bind (Knowledge.justifies_await trivial) fun timestamp facts _ => ?_
      refine Knowledge.justifies_bind (Knowledge.justifies_await ?_) fun id facts _ => attemptDelivery_forwards id facts
      exact htold intent eventType data timestamp rfl
  | processRetries =>
    refine Knowledge.justifies_bind (Knowledge.justifies_bind (Knowledge.justifies_await trivial) fun rows facts _ =>
      Knowledge.justifies_bind ?_ fun _ _ _ => trivial) fun _ _ _ => trivial
    exact Knowledge.justifies_forM fun id _ facts' _ => attemptDelivery_forwards id facts'

/-- The payload of a delivery that is begun. -/
def Begun (cs : List (Choice Call Answer IntentError Unit Oracle)) (payload : Payload) : Prop :=
  ∃ (intent : PaymentIntent) (eventType : EventType) (data : Payload) (timestamp : Time),
    .spawn (deliverWebhook intent eventType data) ∈ cs ∧
      payload = webhookPayload intent.id eventType intent.state timestamp data

/-- **Every request carries the payload of a delivery,** as it was recorded, and the signature that is in it. -/
theorem sent_signed {cs : List (Choice Call Answer IntentError Unit Oracle)} (hempty : db.deliveries.rows = [])
    (hcs : ∀ p, .spawn p ∈ cs → Delivers p) {i : Nat} {url : String} {payload : Payload}
    (hsent : (Pool.exec handle (⟨db, []⟩ : Service) cs).pending i = some (.fetch url headers payload)) :
    Begun cs payload ∧ headers.lookup "X-Webhook-Signature" = some ((payload.get? "signature").getD (.str "")) := by
  have hknown : (Pool.exec handle (⟨db, []⟩ : Service) cs).GhostInv (forwarding (Begun cs)).protocol
      ((forwarding (Begun cs)).Sound fun db => ∀ d ∈ db.deliveries.rows, Begun cs d.payload) := by
    have hspawn (p : Task Unit) (hp : .spawn p ∈ cs) : (forwarding (Begun cs)).Justifies [] p := by
      refine (hcs p hp).forwards fun intent eventType data timestamp hdeliver => ?_
      exact ⟨intent, eventType, data, timestamp, hdeliver ▸ hp, rfl⟩
    refine Knowledge.exec_knows hspawn (fun s facts a o hrows _ hok => ?_) ?_ fun p hp => hp
    · exact ⟨handle_forwards a hrows, handle_told hrows hok, fun _ _ => trivial,
        fun f hf => absurd hf List.not_mem_nil⟩
    · rw [hempty]
      exact fun d hd => absurd hd List.not_mem_nil
  obtain ⟨facts, hok, -⟩ := Knowledge.pending_justified hknown hsent
  exact hok

/-- A merchant with a webhook, and nothing else. -/
def hooked (merchantId : Id) : Db :=
  { intents := .empty, events := [], deliveries := .empty
    merchants := ⟨[{ shop with id := merchantId, webhookUrl := some "https://shop/hook" }], List.nodup_singleton _⟩ }

/-- The first attempt comes to its request. -/
theorem attemptDelivery_sends {d : WebhookDelivery} (hcount : d.attemptCount = 0)
    (hget : handle (.getDelivery d.id) o db = (.ok (some d), db)) :
    ∃ headers, ((⟨db, [attemptDelivery d.id]⟩ : Service).next handle (.step 0 o)).pending 0 =
      some (.fetch d.webhookUrl headers d.payload) := by
  have hfirst : ¬ 0 + 1 > 1 := by decide
  have hstep : (⟨db, [attemptDelivery d.id]⟩ : Service).next handle (.step 0 o) = _ := Pool.next_answered hget _
  rw [hstep]
  dsimp only
  rw [hcount, if_neg hfirst]
  exact ⟨_, rfl⟩

/-- Every delivery is sent in some run. -/
theorem exists_sent (intent : PaymentIntent) (eventType : EventType) (timestamp : Time) (data : Payload) :
    ∃ headers, Sent headers (webhookPayload intent.id eventType intent.state timestamp data) := by
  let o : Oracle := { now := timestamp, uuid := "d" }
  let db := hooked intent.merchantId
  let merchant : MerchantConfig := { shop with id := intent.merchantId, webhookUrl := some "https://shop/hook" }
  let payload := webhookPayload intent.id eventType intent.state timestamp data
  let row : WebhookDelivery :=
    { id := "d", intentId := intent.id, eventType, webhookUrl := "https://shop/hook", payload, createdAt := timestamp }
  let recorded : Db := { db with deliveries := ⟨[row], List.nodup_singleton _⟩ }
  have hmerchant : handle (.getById intent.merchantId) o db = (.ok (some merchant), db) := by
    have hfind : db.merchants.find? intent.merchantId = some merchant := by simp [db, hooked, Table.find?, merchant]
    simp only [handle, getById, query_pure, hfind]
    rfl
  have hget : handle (.getDelivery row.id) o recorded = (.ok (some row), recorded) := rfl
  obtain ⟨headers, hfetch⟩ := attemptDelivery_sends rfl hget
  refine ⟨headers, db, [.spawn (deliverWebhook intent eventType data), .step 0 o, .step 0 o, .step 0 o, .step 0 o], 0,
    "https://shop/hook", rfl, ?_, ?_⟩
  · intro p hp
    simp only [List.mem_cons, Choice.spawn.injEq, reduceCtorEq, List.not_mem_nil, or_false] at hp
    subst hp
    exact .deliverWebhook intent eventType data
  · have hspawn : (⟨db, []⟩ : Service).next handle (.spawn (deliverWebhook intent eventType data)) =
      ⟨db, [deliverWebhook intent eventType data]⟩ := rfl
    have hfirst : (⟨db, [deliverWebhook intent eventType data]⟩ : Service).next handle (.step 0 o) = _ :=
      Pool.next_answered hmerchant _
    rw [Pool.exec_cons, Pool.exec_cons, hspawn, hfirst]
    exact hfetch

/-- Every request with the event carries a signature that the merchant gets. -/
def Verified (literal : ℚ → Literal) (recompute? : (String → String) → Doc → Option String) (intent : PaymentIntent)
    (eventType : EventType) (data : Payload) : Prop :=
  ∀ headers timestamp, Sent headers (webhookPayload intent.id eventType intent.state timestamp data) →
    Verifies literal recompute? headers (webhookPayload intent.id eventType intent.state timestamp data)

/-- The signature of a payload is in its header. -/
theorem Sent.signature (h : Sent headers (webhookPayload intentId eventType state timestamp data)) :
    headers.lookup "X-Webhook-Signature" = some (generateSignature intentId eventType data) := by
  obtain ⟨db, cs, i, url, hempty, hcs, hsent⟩ := h
  have hget : (webhookPayload intentId eventType state timestamp data).get? "signature" =
      some (generateSignature intentId eventType data) := rfl
  rw [(sent_signed hempty hcs hsent).2, hget, Option.getD_some]

/-- What all requests with an event have in common, one of them has. -/
theorem verified_iff_of {recompute? : (String → String) → Doc → Option String} {intent : PaymentIntent} {P : Prop}
    (h : ∀ headers timestamp, headers.lookup "X-Webhook-Signature" = some (generateSignature intent.id eventType data) →
      (Verifies literal recompute? headers (webhookPayload intent.id eventType intent.state timestamp data) ↔ P)) :
    Verified literal recompute? intent eventType data ↔ P := by
  constructor
  · intro hverified
    obtain ⟨headers, hsent⟩ := exists_sent intent eventType 0 data
    exact (h headers 0 hsent.signature).1 (hverified headers 0 hsent)
  · intro hP headers timestamp hsent
    exact (h headers timestamp hsent.signature).2 hP

theorem verified_iff (intent : PaymentIntent) (hdata : ((Json.obj data).doc literal).Distinct) :
    Verified literal recomputed? intent eventType data ↔
      (Storable literal intent.id data → ((Json.obj data).doc literal).InOrder) :=
  verified_iff_of fun _ _ hheaders => verifies_iff hheaders hdata

theorem verifiedInBody_iff (intent : PaymentIntent) :
    Verified literal recomputedInBody? intent eventType data ↔ ¬ Storable literal intent.id data :=
  verified_iff_of fun _ _ hheaders => verifiesInBody_iff hheaders

/-- **A merchant gets the signature from the body just when** the names in the data are in the order of the column, or
PostgreSQL takes no such payload; and never if the three members are taken as they follow each other in the body. -/
theorem signatures_verify_iff (literal : ℚ → Literal) (intent : PaymentIntent) (eventType : EventType)
    (data : DataObject) :
    (Verified literal recomputed? intent eventType data.fields ↔
      (Storable literal intent.id data.fields → ((Json.obj data.fields).doc literal).InOrder)) ∧
    (Verified literal recomputedInBody? intent eventType data.fields ↔ ¬ Storable literal intent.id data.fields) :=
  ⟨verified_iff intent (data.distinct literal), verifiedInBody_iff intent⟩

/-- What `detectDeposit` tells of a deposit (payment-intent.service.ts:303). -/
def depositData : DataObject where
  fields := [("tx_hash", .str "0xabc"), ("amount", .num 100), ("source_chain", .str "ethereum"),
    ("source_asset", .str "USDC")]
  distinct := by
    intro literal
    simp [Doc.Distinct, Json.doc, Json.members, Doc.everyObject, Doc.everyMember]

def hundred : Literal := ⟨['1', '0', '0'], by simp, by simp [isLiteral]⟩

/-- It comes back with the amount first. -/
theorem deposit_not_verified :
    ¬ Verified (fun _ => hundred) recomputed? quotedRow .depositDetected depositData.fields ∧
    ¬ Verified (fun _ => hundred) recomputedInBody? quotedRow .depositDetected
      depositData.fields := by
  have hstorable : Storable (fun _ => hundred) quotedRow.id depositData.fields := by
    constructor <;> decide +kernel
  rw [verified_iff quotedRow (depositData.distinct _), verifiedInBody_iff quotedRow, not_not]
  exact ⟨fun h => absurd (h hstorable) (by decide +kernel), hstorable⟩

end Intent

end NexoraGateway
