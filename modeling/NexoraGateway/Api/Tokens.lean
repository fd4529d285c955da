import NexoraGateway.Api.Routes
import NexoraGateway.Intent.Deposits
import NexoraGateway.Text.Base64
import NexoraGateway.Text.Json
import NexoraGateway.Text.Numerals

/-!
# Who a token lets in (`payment-intent/src/auth.service.ts`, `api-gateway/src/middleware/auth.ts`)

A token is "JWT-like (for demo purposes)": the payload in base64, and no signature. Whoever can write a payload can
write a token; `validateToken_iff` says which payloads are accepted, and for how long a token of `generateToken` is.

* `toNumber` — what JavaScript compares the `exp` of a payload as.
* `generateToken`, `validateToken` — auth.service.ts:83, :217.
-/
namespace NexoraGateway.Api

open Text.Json (Scalar Value)
open Text.Numerals (number? trim)
open Intent (Db MerchantConfig Oracle)

/-! ## The comparison with a number -/

inductive Number where
  | nan
  | infinity
  | negInfinity
  | finite (q : ℚ)

/-- `x < n`. -/
def Number.less (n : Int) : Number → Bool
  | nan | infinity => false
  | negInfinity => true
  | finite q => q < n

def stringToNumber (s : String) : Number :=
  match trim s.toList with
  | ['I', 'n', 'f', 'i', 'n', 'i', 't', 'y'] | ['+', 'I', 'n', 'f', 'i', 'n', 'i', 't', 'y'] => .infinity
  | ['-', 'I', 'n', 'f', 'i', 'n', 'i', 't', 'y'] => .negInfinity
  | _ =>
    match number? s with
    | some q => .finite q
    | none => .nan

mutual

/-- Whether `String(x)` throws: a `toString` of its own cannot be called. -/
def unprintable : Value → Bool
  | .obj fields => fields.any fun field => field.1 = "toString"
  | .arr xs => anyUnprintable xs
  | _ => false

def anyUnprintable : List Value → Bool
  | [] => false
  | x :: xs => unprintable x || anyUnprintable xs

end

/-- `Number(String([x]))`: an array is compared as its elements, joined with commas. -/
def elementToNumber : Value → Number
  | .null | .arr [] => .finite 0
  | .num q => .finite q
  | .str s => stringToNumber s
  | .arr [x] => elementToNumber x
  | .bool _ | .arr _ | .obj _ => .nan

/-- The number that a value is compared as; `none` throws. -/
def toNumber : Option Value → Option Number
  | none => some .nan
  | some .null => some (.finite 0)
  | some (.bool b) => some (.finite (if b then 1 else 0))
  | some (.num q) => some (.finite q)
  | some (.str s) => some (stringToNumber s)
  | some x => if unprintable x then none else some (elementToNumber x)

/-- Whether a value is before 5: what is not a number mostly is not. -/
example : [none, some (.str "4"), some (.str "soon"), some (.arr []), some (.obj [])].map
    (fun x => (toNumber x).map (Number.less 5)) = [some false, some true, some false, some true, some false] := by
  decide +kernel

/-! ## Tokens -/

def day : Int := 24 * 60 * 60

/-- auth.service.ts:83, which reads the clock twice. -/
def generateToken (now now' : Time) (merchantId : Id) : String :=
  let payload : List (String × Scalar) :=
    [("merchant_id", .str merchantId), ("iat", .int (now / 1000)), ("exp", .int (now' / 1000 + day))]
  String.ofList (Text.Base64.encode (Text.Utf8.encode (Text.Json.stringify payload)))

/-- `JSON.parse(Buffer.from(token, 'base64').toString())`. -/
def payload? (token : String) : Option Value :=
  Text.Json.parse (Text.Utf8.decode (Text.Base64.decode token.toList))

/-- auth.service.ts:217. `prepareValue` is what the database driver makes of a parameter. -/
def validateToken (prepareValue : Option Value → Option String) (o : Oracle) (token : String) (db : Db) :
    Option MerchantConfig :=
  match payload? token with
  | none | some .null => none
  | some payload =>
    match toNumber (payload.get? "exp") with
    | none => none
    | some exp =>
      if exp.less (o.now / 1000) then none
      else
        match (Intent.query o (fun db =>
          return ((prepareValue (payload.get? "merchant_id")).bind db.merchants.find?, db)) db).1 with
        | .ok merchant => merchant
        | .error _ => none

structure Headers where
  apiKey : Option String := none
  authorization : Option String := none

/-- `authMiddleware` (middleware/auth.ts:22): who it lets in. -/
def authMiddleware (prepareValue : Option Value → Option String) (validateApiKey : String → Option MerchantConfig)
    (o : Oracle) (headers : Headers) (db : Db) : Option MerchantConfig :=
  match given headers.apiKey with
  | some apiKey => validateApiKey apiKey
  | none =>
    match headers.authorization with
    | some header =>
      if "Bearer ".isPrefixOf header then validateToken prepareValue o (String.ofList (header.toList.drop 7)) db
      else none
    | none => none

/-! ## What is accepted -/

variable {prepareValue : Option Value → Option String} {o : Oracle} {db : Db} {token : String}

/-- Whom the payload names, if the merchant is registered. -/
def named (prepareValue : Option Value → Option String) (payload : Value) (db : Db) : Option MerchantConfig :=
  (prepareValue (payload.get? "merchant_id")).bind db.merchants.find?

/-- Who is let in: the merchant that the payload names, unless its `exp` is past. -/
theorem validateToken_eq_some {merchant : MerchantConfig} :
    validateToken prepareValue o token db = some merchant ↔
      ∃ payload exp, payload? token = some payload ∧ payload ≠ .null ∧ toNumber (payload.get? "exp") = some exp ∧
        exp.less (o.now / 1000) = false ∧ o.fault ≠ some .query ∧ named prepareValue payload db = some merchant := by
  have hlookup (payload : Value) : Intent.query o (fun db =>
      return ((prepareValue (payload.get? "merchant_id")).bind db.merchants.find?, db)) db =
      if o.fault = some .query then (.error (.database .query), db) else (.ok (named prepareValue payload db), db) :=
    Intent.query_pure fun db => named prepareValue payload db
  unfold validateToken
  constructor
  · intro h
    split at h
    · cases h
    · cases h
    · rename_i payload hnull hpayload
      split at h
      · cases h
      · rename_i exp hexp
        split at h
        · cases h
        · rename_i hless
          rw [hlookup] at h
          by_cases hfault : o.fault = some .query
          · rw [if_pos hfault] at h
            cases h
          · rw [if_neg hfault] at h
            exact ⟨payload, exp, hpayload, hnull, hexp, by simpa using hless, hfault, h⟩
  · rintro ⟨payload, exp, hpayload, hnull, hexp, hless, hfault, hnamed⟩
    rw [hpayload]
    split
    · rename_i h
      cases h
    · rename_i h
      exact absurd (Option.some.inj h) hnull
    · rename_i h
      obtain rfl := Option.some.inj h
      rw [hexp]
      dsimp only
      rw [hless, if_neg Bool.false_ne_true, hlookup, if_neg hfault]
      exact hnamed

theorem payload?_generateToken (now now' : Time) (m : Id) :
    payload? (generateToken now now' m) = some (.obj
      [("merchant_id", .str m), ("iat", .num ((now / 1000 : Int) : ℚ)),
        ("exp", .num ((now' / 1000 + day : Int) : ℚ))]) := by
  unfold payload? generateToken
  rw [String.toList_ofList, Text.Base64.decode_encode fun b hb => Text.Utf8.encode_lt hb, Text.Utf8.decode_encode,
    Text.Json.parse_stringify]
  rfl

/-- A payload with a number for its `exp`: it is accepted to the end of that second, whoever wrote it. -/
theorem validateToken_numeric {merchant : MerchantConfig} {payload : Value} {exp : ℚ}
    (hpayload : payload? token = some payload) (hexp : payload.get? "exp" = some (.num exp)) :
    validateToken prepareValue o token db = some merchant ↔
      o.fault ≠ some .query ∧ ((o.now / 1000 : Int) : ℚ) ≤ exp ∧ named prepareValue payload db = some merchant := by
  rw [validateToken_eq_some]
  constructor
  · rintro ⟨payload', number, hpayload', -, hnumber, hless, hfault, hnamed⟩
    obtain rfl := Option.some.inj (hpayload.symm.trans hpayload')
    rw [hexp] at hnumber
    cases hnumber
    exact ⟨hfault, not_lt.1 (of_decide_eq_false hless), hnamed⟩
  · rintro ⟨hfault, hle, hnamed⟩
    refine ⟨payload, .finite exp, hpayload, ?_, by rw [hexp]; rfl, decide_eq_false (not_lt.2 hle), hfault, hnamed⟩
    rintro rfl
    cases hexp

/-- **What tokens are accepted.** A token lets in the registered merchant that its payload names, whoever built it: one
whose `exp` is a number exactly until that second is over, and one of `generateToken` exactly for its merchant and until
24 hours after the second in which it was generated. -/
theorem tokens_accepted (prepareValue : Option Value → Option String)
    (hprepare : ∀ s, prepareValue (some (.str s)) = some s) (o : Oracle) (db : Db) (merchant : MerchantConfig) :
    (∀ token, validateToken prepareValue o token db = some merchant →
      ∃ payload, payload? token = some payload ∧ named prepareValue payload db = some merchant) ∧
    (∀ token payload exp, payload? token = some payload → payload.get? "exp" = some (.num exp) →
      (validateToken prepareValue o token db = some merchant ↔
        o.fault ≠ some .query ∧ ((o.now / 1000 : Int) : ℚ) ≤ exp ∧ named prepareValue payload db = some merchant)) ∧
    ∀ now now' m, validateToken prepareValue o (generateToken now now' m) db = some merchant ↔
      o.fault ≠ some .query ∧ o.now / 1000 ≤ now' / 1000 + day ∧ db.merchants.find? m = some merchant := by
  refine ⟨fun token h => ?_, fun token payload exp => validateToken_numeric, fun now now' m => ?_⟩
  · obtain ⟨payload, -, hpayload, -, -, -, -, hnamed⟩ := validateToken_eq_some.1 h
    exact ⟨payload, hpayload, hnamed⟩
  · rw [validateToken_numeric (payload?_generateToken now now' m) rfl, Int.cast_le]
    have hnamed : named prepareValue (.obj [("merchant_id", .str m), ("iat", .num ((now / 1000 : Int) : ℚ)),
        ("exp", .num ((now' / 1000 + day : Int) : ℚ))]) db =
      (prepareValue (some (.str m))).bind db.merchants.find? := rfl
    rw [hnamed, hprepare, Option.bind_some]

/-- What the driver makes of the parameters here. -/
def textOf : Option Value → Option String
  | some (.str s) => some s
  | _ => none

/-- The rule for a token of the shop that is a day old, and a second later. -/
theorem tokens_accepted_shop :
    (validateToken textOf { now := 86400000 } (generateToken 0 0 "shop") Intent.shopDb).map MerchantConfig.id =
      some "shop" ∧
    ∀ merchant, validateToken textOf { now := 86401000 } (generateToken 0 0 "shop") Intent.shopDb ≠ some merchant := by
  have hrule (o : Oracle) (merchant : MerchantConfig) :=
    (tokens_accepted textOf (fun _ => rfl) o Intent.shopDb merchant).2.2 0 0 "shop"
  constructor
  · rw [(hrule { now := 86400000 } Intent.shop).2 ⟨by decide, by decide, rfl⟩]
    rfl
  · intro merchant h
    exact absurd ((hrule _ _).1 h).2.1 (by decide)

/-- `{"merchant_id":"shop","exp":9999999999}` in base64. -/
def forged : String := "eyJtZXJjaGFudF9pZCI6InNob3AiLCJleHAiOjk5OTk5OTk5OTl9"

/-- `{"merchant_id":"shop"}` in base64. -/
def undated : String := "eyJtZXJjaGFudF9pZCI6InNob3AifQ=="

/-- Two tokens that were never generated let in the shop; the second has no `exp`. -/
theorem forged_accepted :
    let letIn := fun token => authMiddleware textOf (fun _ => none) { now := 1000 }
      { authorization := some ("Bearer " ++ token) } Intent.shopDb
    (letIn forged).map MerchantConfig.id = some "shop" ∧ (letIn undated).map MerchantConfig.id = some "shop" ∧
      ∀ now now' m, forged ≠ generateToken now now' m ∧ undated ≠ generateToken now now' m := by
  intro letIn
  -- a generated token says when it was issued
  have hissued (now now' : Time) (m : Id) :
      ((payload? (generateToken now now' m)).bind (Value.get? "iat")).isSome := by
    rw [payload?_generateToken]
    rfl
  have hforged : ((payload? forged).bind (Value.get? "iat")).isSome = false := by decide +kernel
  have hundated : ((payload? undated).bind (Value.get? "iat")).isSome = false := by decide +kernel
  refine ⟨by decide +kernel, by decide +kernel, fun now now' m => ⟨fun h => ?_, fun h => ?_⟩⟩
  · rw [h, hissued] at hforged
    cases hforged
  · rw [h, hissued] at hundated
    cases hundated

end NexoraGateway.Api
