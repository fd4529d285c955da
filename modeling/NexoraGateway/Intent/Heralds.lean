import NexoraGateway.Intent.Repeats

/-!
# A transition is followed by its webhook

An `Announcement` is one event of one intent. `Announcement.protocol` follows a task on the way to it: before the
transition (`idle`), from the transition to the `webhook_deliveries` row (`announced`, `found`, `timed`), and after
(`done`). `op_heralds` says that the operations of the service keep to it, also when they are run again after the
transition.
-/
namespace NexoraGateway.Intent

open Async

/-- The intents that an answer contains. -/
def answered : (a : Call) → Answer a → List PaymentIntent
  | .findById _, .ok intent => intent.toList
  | .create _, .ok intent | .transition .., .ok intent | .updateQuote .., .ok intent => [intent]
  | .findExpiredIntents, .ok intents => intents
  | _, _ => []

/-- The intent that a call asks for. -/
def Call.target : Call → Option Id
  | findById id | transition id .. | updateQuote id .. => some id
  | _ => none

/-- An event of an intent, of which only `states` are read. -/
structure Announcement where
  intentId : Id
  merchantId : Id
  targetAmount : ℚ
  eventType : EventType
  states : IntentState → Prop

inductive Phase where
  | idle | announced | found | timed | done | never

/-- No announcement is under way. -/
def Phase.Rests : Phase → Prop
  | idle | done | never => True
  | _ => False

namespace Announcement
variable (c : Announcement)

/-- What is read about the intent. -/
def Describes (intent : PaymentIntent) : Prop :=
  intent.id = c.intentId →
    intent.merchantId = c.merchantId ∧ intent.targetAmount = c.targetAmount ∧ c.states intent.state

/-- The transitions that may be asked for: one to the event's state is the event's, and after it none is valid. -/
def Permits : Phase → Id → EventType → Prop
  | .idle, id, eventType =>
    id = c.intentId → getExpectedNextState eventType = getExpectedNextState c.eventType →
      eventType = c.eventType
  | .done, id, eventType =>
    id = c.intentId → ¬ Valid (getExpectedNextState c.eventType) (getExpectedNextState eventType)
  | .never, _, _ => True
  | _, _, _ => False

def ok : Phase → Call → Prop
  | g, .transition id eventType _ => c.Permits g id eventType
  | .announced, a => a = .getById c.merchantId
  | .found, a => a = .now
  | .timed, a => ∃ url payload, a = .upsertDelivery c.intentId c.eventType url payload
  | .idle, .upsertDelivery id eventType .. | .done, .upsertDelivery id eventType .. =>
    ¬ (id = c.intentId ∧ eventType = c.eventType)
  | _, _ => True

def rely : (a : Call) → Answer a → Prop
  | .now, r => ∃ now, r = .ok now
  | a, r => ∀ intent ∈ answered a r, c.Describes intent ∧ ∀ id, a.target = some id → intent.id = id

def next : Phase → (a : Call) → Answer a → Phase
  | .idle, .transition id eventType _, .ok _ =>
    if id = c.intentId ∧ eventType = c.eventType then .announced else .idle
  | .done, .transition id _ _, .ok _ => if id = c.intentId then .never else .done
  | .announced, .getById _, .ok merchant =>
    if (merchant.bind MerchantConfig.webhookUrl).isSome then .found else .done
  | .found, .now, .ok _ => .timed
  | .idle, _, _ => .idle
  | .never, _, _ => .never
  | _, _, _ => .done

abbrev protocol : Protocol Call Answer Phase := ⟨c.ok, c.rely, c.next⟩

/-- The phase after an accepted transition of `id` by `eventType`. -/
def Ready (id : Id) (eventType : EventType) (g : Phase) : Prop :=
  if id = c.intentId ∧ eventType = c.eventType then g = .announced ∨ g = .never else g.Rests

end Announcement

variable {c : Announcement} {g : Phase} {α : Type}

theorem never_heralds {Q : Phase → Except IntentError α → Prop} (hQ : ∀ out, Q .never out) (p : Task α) :
    p.Obeys c.protocol Q .never := by
  have hstays (a : Call) : c.ok .never a ∧ ∀ r, c.next .never a r = .never := by
    cases a <;> exact ⟨trivial, fun _ => rfl⟩
  refine ((Prog.only_true p).obeys_still fun a _ => hstays a).mono ?_
  rintro _ out rfl
  exact hQ out

/-! ## Webhooks -/

/-- The calls of a delivery: what it upserts is the row of its event. -/
def Call.Delivers (intentId : Id) (eventType : EventType) : Call → Prop
  | create _ | transition .. | updateQuote .. => False
  | upsertDelivery id e .. => id = intentId ∧ e = eventType
  | _ => True

theorem deliverWebhook_delivers (intent : PaymentIntent) (eventType : EventType) (data : Payload) :
    (deliverWebhook intent eventType data).Only (Call.Delivers intent.id eventType) fun _ => True := by
  refine Prog.Only.bind (Prog.Only.await trivial) fun merchant => ?_
  dsimp only
  split
  · exact Prog.Only.ret _
  · refine Prog.Only.bind (Prog.Only.await trivial) fun _ => Prog.Only.bind (Prog.Only.await ⟨rfl, rfl⟩) ?_
    refine attemptDelivery_only (fun a ha => ?_) fun _ => trivial
    cases a with
    | now | getDelivery | updateDeliveryStatus | fetch => trivial
    | _ => exact ha.elim

/-- At rest, the delivery of another event changes nothing. -/
theorem deliverWebhook_other {intent : PaymentIntent} {eventType : EventType} (hg : g.Rests)
    (hother : ¬ (intent.id = c.intentId ∧ eventType = c.eventType)) (data : Payload) :
    (deliverWebhook intent eventType data).Obeys c.protocol (fun g' _ => g' = g) g := by
  refine (deliverWebhook_delivers intent eventType data).obeys_still fun a ha => ?_
  cases a with
  | create | transition | updateQuote => exact ha.elim
  | upsertDelivery id e url payload =>
    obtain ⟨rfl, rfl⟩ := ha
    cases g with
    | idle | done => exact ⟨hother, fun _ => rfl⟩
    | never => exact ⟨trivial, fun _ => rfl⟩
    | _ => exact hg.elim
  | _ =>
    cases g with
    | idle | done | never => exact ⟨trivial, fun _ => rfl⟩
    | _ => exact hg.elim

theorem attemptDelivery_done (deliveryId : Id) :
    (attemptDelivery deliveryId).Obeys c.protocol (fun g _ => g = .done) .done := by
  refine Prog.Only.obeys_still (attemptDelivery_only (fun _ ha => ha) (fun _ => trivial) deliveryId)
    fun a ha => ?_
  cases a with
  | now | getDelivery | updateDeliveryStatus | fetch => exact ⟨trivial, fun _ => rfl⟩
  | _ => exact ha.elim

/-- The delivery of the announced event is the announcement. -/
theorem deliverWebhook_announced {intent : PaymentIntent} (hid : intent.id = c.intentId)
    (hmerchant : intent.merchantId = c.merchantId) (data : Payload) :
    (deliverWebhook intent c.eventType data).Obeys c.protocol (fun g _ => g = .done) .announced := by
  unfold deliverWebhook
  simp only [Prog.bind_def]
  refine Prog.Obeys.bind (Prog.obeys_await.2 ⟨by rw [hmerchant]; rfl, fun r _ => ?_⟩)
  cases r with
  | error e => rfl
  | ok merchant =>
    simp only [Prog.BindPost, Announcement.next]
    cases merchant.bind MerchantConfig.webhookUrl with
    | none => rfl
    | some url =>
      simp only [Option.isSome_some, if_true]
      refine Prog.Obeys.bind (Prog.obeys_await.2 ⟨rfl, fun r hr => ?_⟩)
      obtain ⟨now, rfl⟩ := hr
      refine Prog.Obeys.bind (Prog.obeys_await.2 ⟨⟨url, _, by rw [hid]⟩, fun r _ => ?_⟩)
      cases r with
      | error e => rfl
      | ok deliveryId => exact attemptDelivery_done deliveryId

/-! ## Operations -/

/-- A task that keeps to the announcement of `c` from phase `g` on. -/
abbrev Heralds (c : Announcement) (g : Phase) (p : Task α) : Prop := p.Obeys c.protocol (fun g _ => g.Rests) g

theorem Heralds.bind {β : Type} {p : Task α} {f : α → Task β} (hp : Heralds c g p)
    (hf : ∀ x g', g'.Rests → Heralds c g' (f x)) : Heralds c g (p.bind f) := by
  refine Prog.Obeys.bind (hp.mono fun g' out hg' => ?_)
  cases out with
  | error e => exact hg'
  | ok x => exact hf x g' hg'

theorem Heralds.tryCatch {p : Task α} {f : IntentError → Task α} (hp : Heralds c g p)
    (hf : ∀ e g', g'.Rests → Heralds c g' (f e)) : Heralds c g (p.tryCatch f) := by
  refine Prog.Obeys.tryCatch (hp.mono fun g' out hg' => ?_)
  cases out with
  | error e => exact hf e g' hg'
  | ok x => exact hg'

/-- A call that neither advances an intent nor records a delivery. -/
def Call.Silent : Call → Prop
  | transition .. | upsertDelivery .. => False
  | _ => True

theorem silent_heralds {a : Call} {f : a.Ans → Task α} (ha : a.Silent) (hg : g.Rests)
    (hf : ∀ x, c.rely a (.ok x) → Heralds c g (f x)) : Heralds c g ((Prog.await a).bind f) := by
  have hok : c.ok g a ∧ ∀ r, c.next g a r = g := by
    cases a with
    | transition | upsertDelivery => exact ha.elim
    | _ =>
      cases g with
      | idle | done | never => exact ⟨trivial, fun _ => rfl⟩
      | _ => exact hg.elim
  refine Prog.Obeys.bind (Prog.obeys_await.2 ⟨hok.1, fun r hr => ?_⟩)
  change Prog.BindPost c.protocol _ f (c.next g a r) r
  rw [hok.2 r]
  cases r with
  | error e => exact hg
  | ok x => exact hf x hr

theorem deliverWebhook_heralds {intent : PaymentIntent} {eventType : EventType}
    (hdescribed : c.Describes intent) (hready : c.Ready intent.id eventType g) (data : Payload) :
    Heralds c g (deliverWebhook intent eventType data) := by
  unfold Announcement.Ready at hready
  split at hready
  · rename_i hthis
    obtain ⟨hid, rfl⟩ := hthis
    rcases hready with rfl | rfl
    · exact (deliverWebhook_announced hid (hdescribed hid).1 data).mono fun g _ h => by rw [h]; trivial
    · exact never_heralds (fun _ => trivial) _
  · rename_i hother
    exact (deliverWebhook_other hready hother data).mono fun g' _ h => by rwa [h]

/-- A transition that may be asked for, and what follows it. -/
theorem transition_heralds {id : Id} {eventType : EventType} {payload : Payload} {f : PaymentIntent → Task α}
    (hg : g.Rests) (hpermits : c.Permits g id eventType)
    (hf : ∀ intent g', intent.id = id → c.Describes intent → c.Ready id eventType g' → Heralds c g' (f intent)) :
    Heralds c g ((Task.transition id eventType payload).bind f) := by
  refine Prog.Obeys.bind (Prog.obeys_await.2 ⟨by cases g <;> exact hpermits, fun r hr => ?_⟩)
  cases r with
  | error e =>
    cases g with
    | idle | done | never => trivial
    | _ => exact hpermits.elim
  | ok intent =>
    obtain ⟨hdescribed, hid⟩ := hr intent (List.mem_singleton_self intent)
    refine hf intent _ (hid id rfl) hdescribed ?_
    unfold Announcement.Ready
    cases g with
    | idle =>
      simp only [Announcement.next]
      split
      · exact .inl rfl
      · trivial
    | done =>
      simp only [Announcement.next]
      by_cases hthis : id = c.intentId
      · rw [if_pos hthis]
        split
        · exact .inr rfl
        · trivial
      · rw [if_neg hthis, if_neg fun h => hthis h.1]
        trivial
    | never =>
      split
      · exact .inr rfl
      · trivial
    | _ => exact hpermits.elim

/-- A transition by another event is not announced. -/
theorem transition_quiet {id : Id} {eventType : EventType} {payload : Payload} {f : PaymentIntent → Task α}
    (hg : g.Rests) (hpermits : c.Permits g id eventType) (hother : eventType ≠ c.eventType)
    (hf : ∀ intent g', g'.Rests → Heralds c g' (f intent)) :
    Heralds c g ((Task.transition id eventType payload).bind f) :=
  transition_heralds hg hpermits fun intent g' hid hdescribed hready =>
    hf intent g' (by rwa [Announcement.Ready, if_neg fun h => hother h.2] at hready)

theorem transitionAndNotify_heralds {id : Id} {eventType : EventType} (hg : g.Rests)
    (hpermits : c.Permits g id eventType) (payload data : Payload) :
    Heralds c g (transitionAndNotify id eventType payload data) :=
  transition_heralds hg hpermits fun updated g' hid hdescribed hready =>
    (deliverWebhook_heralds hdescribed (by rwa [hid]) data).bind fun _ _ hg' => hg'

variable {id : Id} {eventType : EventType}

theorem advanceIntent_heralds (hg : g.Rests) (hpermits : c.Permits g id eventType) (data : Payload)
    (stamp : String) :
    Heralds c g (advanceIntent id eventType data stamp) := by
  refine silent_heralds trivial hg fun intent _ => ?_
  cases intent with
  | none => exact hg
  | some intent => exact silent_heralds trivial hg fun now _ => transitionAndNotify_heralds hg hpermits _ _

theorem generateQuote_heralds (hg : g.Rests) (hpermits : c.Permits g id .quoteGenerated) (rate : ℚ)
    (depositAddress depositAsset depositChain : String) :
    Heralds c g (generateQuote id rate depositAddress depositAsset depositChain) := by
  refine silent_heralds trivial hg fun intent _ => ?_
  cases intent with
  | none => exact hg
  | some intent =>
    dsimp only
    split
    · exact hg
    · refine silent_heralds trivial hg fun merchant _ => silent_heralds trivial hg fun now _ => ?_
      refine silent_heralds trivial hg fun _ _ => transition_heralds hg hpermits
        fun updated g' hid hdescribed hready => ?_
      exact (deliverWebhook_heralds hdescribed (by rwa [hid]) _).bind fun _ _ hg' => hg'

theorem expire_heralds (hpermits : ∀ id g, g.Rests → c.Permits g id .quoteExpired) (hg : g.Rests)
    (expired : List PaymentIntent) (hdescribed : ∀ intent ∈ expired, c.Describes intent) :
    Heralds c g (expired.forM fun intent => Prog.tryCatch
      (Task.now.bind fun now => (Task.transition intent.id .quoteExpired [("expired_at", .date now)]).bind fun _ =>
        deliverWebhook intent .quoteExpired [("intent_id", .str intent.id)])
      fun _ => Prog.ret ()) := by
  induction expired generalizing g with
  | nil => exact hg
  | cons intent expired ih =>
    refine Heralds.bind ?_ fun _ g' hg' => ih hg' fun i hi => hdescribed i (List.mem_cons_of_mem _ hi)
    refine Heralds.tryCatch ?_ fun _ _ hg' => hg'
    refine silent_heralds trivial hg fun now _ => transition_heralds hg (hpermits _ g hg)
      fun _ g' _ _ hready => ?_
    exact deliverWebhook_heralds (hdescribed intent List.mem_cons_self) hready _

theorem processExpiredQuotes_heralds (hpermits : ∀ id g, g.Rests → c.Permits g id .quoteExpired)
    (hg : g.Rests) :
    Heralds c g processExpiredQuotes :=
  silent_heralds trivial hg fun expired hexpired =>
    (expire_heralds hpermits hg expired fun intent h => (hexpired intent h).1).bind fun _ _ hg' => hg'

theorem awaitPayment_heralds (hg : g.Rests) (hpermits : c.Permits g id .paymentAwaited)
    (hother : .paymentAwaited ≠ c.eventType) : Heralds c g (awaitPayment id) := by
  refine silent_heralds trivial hg fun intent _ => ?_
  cases intent with
  | none => exact hg
  | some intent =>
    dsimp only
    split
    · exact hg
    · refine silent_heralds trivial hg fun now _ => ?_
      rw [← Prog.bind_ret (Task.transition _ _ _)]
      exact transition_quiet hg hpermits hother fun _ _ hg' => hg'

section
variable {txHash sourceChain sourceAsset : String} {amount : ℚ}

theorem classifyDeposit_heralds {intent : PaymentIntent} (hg : g.Rests)
    (hpermits : c.Permits g id (classify intent.targetAmount amount)) :
    Heralds c g (classifyDeposit intent id txHash amount sourceChain sourceAsset) := by
  unfold classify at hpermits
  unfold classifyDeposit
  dsimp only
  split at hpermits
  · rename_i hunder
    rw [if_pos hunder]
    exact transitionAndNotify_heralds hg hpermits _ _
  · rename_i hunder
    rw [if_neg hunder]
    split at hpermits
    · rename_i hover
      rw [if_pos hover]
      exact transitionAndNotify_heralds hg hpermits _ _
    · rename_i hover
      rw [if_neg hover]
      exact silent_heralds trivial hg fun now _ => transitionAndNotify_heralds hg hpermits _ _

variable (hexpired : ∀ g : Phase, g.Rests → c.Permits g id .quoteExpired) (hother : .quoteExpired ≠ c.eventType)
  (hclassified : ∀ (g : Phase) (intent : PaymentIntent), g.Rests → intent.id = id → c.Describes intent →
    c.Permits g id (classify intent.targetAmount amount))
include hexpired hother hclassified

theorem detectDeposit_heralds (hg : g.Rests) :
    Heralds c g (detectDeposit id txHash amount sourceChain sourceAsset) := by
  refine silent_heralds trivial hg fun intent hrely => ?_
  cases intent with
  | none => exact hg
  | some intent =>
    obtain ⟨hdescribed, hid⟩ := hrely intent (List.mem_singleton_self intent)
    have hclass := hclassified g intent hg (hid id rfl) hdescribed
    dsimp only
    split
    · exact classifyDeposit_heralds hg hclass
    · refine silent_heralds trivial hg fun now _ => ?_
      split
      · exact silent_heralds trivial hg fun _ _ => transition_quiet hg (hexpired g hg) hother fun _ _ hg' => hg'
      · exact classifyDeposit_heralds hg hclass

theorem recordDeposit_heralds (hg : g.Rests) (hawaited : .paymentAwaited ≠ c.eventType)
    (hhop : ∀ intent : PaymentIntent, intent.id = id → c.Describes intent → intent.state = .quoted →
      c.Permits g id .paymentAwaited) :
    Heralds c g (recordDeposit id txHash amount sourceChain sourceAsset) := by
  have hrecover : ∀ (e : IntentError) (g : Phase), g.Rests → Heralds c g (recoverExpired id e) := by
    intro e g hg
    cases e with
    | quoteExpired id =>
      refine silent_heralds trivial hg fun expired _ => ?_
      cases expired with
      | none => exact hg
      | some expired => exact hg
    | _ => exact hg
  have hdetect : ∀ g : Phase, g.Rests → Heralds c g
      ((detectDeposit id txHash amount sourceChain sourceAsset).tryCatch (recoverExpired id)) := fun g hg =>
    (detectDeposit_heralds hexpired hother hclassified hg).tryCatch fun e g' hg' => hrecover e g' hg'
  refine silent_heralds trivial hg fun intent hrely => ?_
  cases intent with
  | none => exact hg
  | some intent =>
    obtain ⟨hdescribed, hid⟩ := hrely intent (List.mem_singleton_self intent)
    dsimp only
    split
    · exact hg
    · split
      · rename_i hquoted
        refine (awaitPayment_heralds hg (hhop intent (hid id rfl) hdescribed hquoted) hawaited).bind
          fun _ g' hg' => ?_
        exact hdetect g' hg'
      · exact hdetect g hg

end

/-! ## Every operation that notifies -/

/-- The events that an operation notifies the merchant of when it records them for an intent over
`targetAmount`. -/
def Op.notifies (targetAmount : ℚ) : Op → List EventType
  | createIntent _ | awaitPayment _ => []
  | generateQuote .. => [.quoteGenerated]
  | recordDeposit _ _ amount .. | detectDeposit _ _ amount .. => [classify targetAmount amount]
  | confirmDeposit .. => [.confirmationReceived]
  | selectRoute .. => [.routeSelected]
  | initiateSettlement .. => [.settlementInitiated]
  | confirmSettlement .. => [.settlementConfirmed]
  | failIntent .. => [.failed]
  | processExpiredQuotes => [.quoteExpired]

theorem Announcement.permits_own (c : Announcement) (hg : g.Rests) (id : Id) : c.Permits g id c.eventType := by
  cases g with
  | idle => exact fun _ _ => rfl
  | done => exact fun _ => no_self_edge _
  | never => trivial
  | _ => exact hg.elim

theorem classify_mem (targetAmount amount : ℚ) :
    classify targetAmount amount ∈ [.underpaymentDetected, .overpaymentDetected, .depositDetected] := by
  unfold classify
  split
  · decide
  · split <;> decide

/-- What a deposit's event rules out: an expiry is neither it nor possible after it. -/
theorem deposit_excludes {event : EventType}
    (h : event ∈ [.underpaymentDetected, .overpaymentDetected, .depositDetected]) :
    .quoteExpired ≠ event ∧ .paymentAwaited ≠ event ∧
      ¬ Valid (getExpectedNextState event) (getExpectedNextState .quoteExpired) ∧
      getExpectedNextState .quoteExpired ≠ getExpectedNextState event ∧
      getExpectedNextState .paymentAwaited ≠ getExpectedNextState event ∧
        getExpectedNextState event ≠ .quoted := by
  revert event
  decide

/-- Where the event is a deposit's, the expiry and any deposit's event may be attempted at rest. -/
theorem deposit_permits {amount : ℚ} (h : c.eventType = classify c.targetAmount amount) (id : Id) :
    (∀ g : Phase, g.Rests → c.Permits g id .quoteExpired) ∧
      ∀ (g : Phase) (intent : PaymentIntent), g.Rests → intent.id = id → c.Describes intent →
        c.Permits g id (classify intent.targetAmount amount) := by
  obtain ⟨-, -, hedge, hstate, -⟩ := deposit_excludes (h ▸ classify_mem _ _ : c.eventType ∈ _)
  constructor
  · intro g hg
    cases g with
    | idle => exact fun _ h => absurd h hstate
    | done => exact fun _ => hedge
    | never => trivial
    | _ => exact hg.elim
  · intro g intent hg hid hdescribed
    by_cases hthis : id = c.intentId
    · rw [(hdescribed (hid.trans hthis)).2.1, ← h]
      exact c.permits_own hg id
    · cases g with
      | idle | done => exact fun h => absurd h hthis
      | never => trivial
      | _ => exact hg.elim

/-- **The operations keep to their announcements**, from the start and, when the intent is only read in the event's
state, once more. -/
theorem op_heralds {op : Op} (hevent : c.eventType ∈ op.notifies c.targetAmount)
    (hg : g = .idle ∨ g = .done ∧ ∀ s, c.states s → s = getExpectedNextState c.eventType) :
    Heralds c g op.task := by
  have hrests : g.Rests := by rcases hg with rfl | ⟨rfl, -⟩ <;> trivial
  have hown (id : Id) {eventType : EventType} (h : c.eventType = eventType) : c.Permits g id eventType :=
    h ▸ c.permits_own hrests id
  cases op with
  | createIntent | awaitPayment => cases hevent
  | generateQuote =>
    exact (generateQuote_heralds hrests (hown _ (List.mem_singleton.1 hevent)) ..).bind fun _ _ hg' => hg'
  | confirmDeposit | selectRoute | initiateSettlement | confirmSettlement | failIntent =>
    exact (advanceIntent_heralds hrests (hown _ (List.mem_singleton.1 hevent)) ..).bind fun _ _ hg' => hg'
  | processExpiredQuotes =>
    have h : c.eventType = .quoteExpired := List.mem_singleton.1 hevent
    exact (processExpiredQuotes_heralds (fun id g hg => h ▸ c.permits_own hg id) hrests).bind fun _ _ hg' => hg'
  | detectDeposit id txHash amount =>
    have h : c.eventType = classify c.targetAmount amount := List.mem_singleton.1 hevent
    obtain ⟨hother, -⟩ := deposit_excludes (h ▸ classify_mem _ _ : c.eventType ∈ _)
    obtain ⟨hexpired, hclassified⟩ := deposit_permits h id
    exact (detectDeposit_heralds hexpired hother hclassified hrests).bind fun _ _ hg' => hg'
  | recordDeposit id txHash amount =>
    have h : c.eventType = classify c.targetAmount amount := List.mem_singleton.1 hevent
    obtain ⟨hother, hawaited, -, -, hhop, hquoted⟩ := deposit_excludes (h ▸ classify_mem _ _ : c.eventType ∈ _)
    obtain ⟨hexpired, hclassified⟩ := deposit_permits h id
    refine (recordDeposit_heralds hexpired hother hclassified hrests hawaited
      fun intent hid hdescribed hstate => ?_).bind fun _ _ hg' => hg'
    rcases hg with rfl | ⟨rfl, hstates⟩
    · exact fun _ h => absurd h hhop
    · exact fun hthis => absurd ((hstates _ (hdescribed (hid.trans hthis)).2.2).symm.trans hstate) hquoted

end NexoraGateway.Intent
