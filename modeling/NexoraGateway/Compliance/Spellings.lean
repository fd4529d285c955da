import NexoraGateway.Async.Runs
import NexoraGateway.Compliance.Chainalysis
import NexoraGateway.Compliance.Gate
import NexoraGateway.Compliance.Scorer
import NexoraGateway.Compliance.Velocity

/-!
# Whether what is known of one address is used for another

The scorers' caches, the sanctions list, the block list and the velocity windows all key an address by its
lower-case spelling, on every chain. On Solana and Tron two valid addresses may differ in nothing but case
(solana-chain-client.ts:91, tron-chain-client.ts:91). `separate_iff` says that two addresses are told apart just
when their lower-case spellings are.

* `Alike` — the offices that differ in what one lower-case spelling is remembered for.
* `handle_blind` — a request that meets this spelling; `handle_alike` — one that does not.
-/
namespace NexoraGateway.Compliance

open Store Async

/-! ## Addresses -/

def base58Chars : String := "123456789ABCDEFGHJKLMNPQRSTUVWXYZabcdefghijkmnopqrstuvwxyz"

/-- `validateAddress` of solana-chain-client.ts:91. -/
def Solana.validateAddress (address : String) : Bool :=
  32 ≤ address.length && address.length ≤ 44 && address.toList.all (base58Chars.toList.contains ·)

/-- `validateAddress` of tron-chain-client.ts:91. -/
def Tron.validateAddress (address : String) : Bool :=
  address.length = 34 && address.toList.head? = some 'T' &&
    (address.toList.drop 1).all (base58Chars.toList.contains ·)

/-! ## The office -/

/-- Everything that remembers addresses: `InMemorySanctionsProvider`, `BasicRiskScorer`, `ComplianceGate`,
`VelocityChecker` and `ChainalysisRiskScorer`. -/
structure Office where
  entries : Dict String SanctionsEntry := Table.empty
  scores : ScoreCache := Table.empty
  gate : ComplianceGate := {}
  windows : Windows := Table.empty
  reports : Chainalysis.Reports := Table.empty

/-- A call, with the clock and what `Math.random` gives. -/
inductive Op where
  | addEntry (entry : SanctionsEntry)
  | removeEntry (address chain : String)
  | screenAddress (address chain : String) (now answeredAt : Time)
  | checkAddress (address chain : String) (amount : ℚ) (now answeredAt gateNow : Time)
  | checkTransaction (tx : TransactionInfo) (now answeredAt gateNow : Time)
  | blockAddress (address : String)
  | unblockAddress (address : String)
  | blockChain (chain : String)
  | unblockChain (chain : String)
  | checkVelocity (tx : TransactionInfo) (now : Time)
  | clearHistory (address chain : String)
  | report (address chain : String) (received : ℚ) (now : Time)

/-- What a call answers. -/
inductive Answer where
  | none
  | risk (result : RiskResult)
  | gate (result : Except ScreeningError ComplianceGateResult)
  | velocity (result : VelocityCheckResult)

/-- `InMemorySanctionsProvider.checkAddress` (basic-risk-scorer.ts:343). -/
def Office.provider (office : Office) : SanctionsProvider :=
  some fun address chain => .ok (office.entries.get? (addressKey address chain))

variable (config : BasicRiskScorerConfig) (window : VelocityWindow)

def Office.handle (office : Office) : Op → Answer × Office
  | .addEntry entry =>
    (.none, { office with entries := office.entries.put (addressKey entry.address entry.chain, entry) })
  | .removeEntry address chain => (.none, { office with entries := office.entries.erase (addressKey address chain) })
  | .screenAddress address chain now answeredAt =>
    let (result, scores) :=
      Compliance.screenAddress config office.provider now answeredAt address chain office.scores
    (.risk result, { office with scores })
  | .checkAddress address chain amount now answeredAt gateNow =>
    let (result, scores) := Compliance.checkAddress office.gate
      (basicRiskScorer config office.provider now answeredAt) address chain amount gateNow office.scores
    (.gate result, { office with scores })
  | .checkTransaction tx now answeredAt gateNow =>
    let (result, scores) := Compliance.checkTransaction
      (basicRiskScorer config office.provider now answeredAt) tx gateNow office.scores
    (.gate result, { office with scores })
  | .blockAddress address => (.none, { office with gate := office.gate.blockAddress address })
  | .unblockAddress address => (.none, { office with gate := office.gate.unblockAddress address })
  | .blockChain chain => (.none, { office with gate := office.gate.blockChain chain })
  | .unblockChain chain => (.none, { office with gate := office.gate.unblockChain chain })
  | .checkVelocity tx now =>
    let (result, windows) := Compliance.checkVelocity window tx now office.windows
    (.velocity result, { office with windows })
  | .clearHistory address chain =>
    (.none, { office with windows := Compliance.clearHistory address chain office.windows })
  | .report address chain received now =>
    let (result, reports) := Chainalysis.screenAddress address chain received now office.reports
    (.risk result, { office with reports })

abbrev Office.next (office : Office) (op : Op) : Office := (office.handle config window op).2

/-- The call is on this address (on this chain, where it names one). -/
def Op.On (address chain : String) : Op → Prop
  | .addEntry entry => entry.address = address ∧ entry.chain = chain
  | .removeEntry a c | .screenAddress a c _ _ | .checkAddress a c _ _ _ _ | .clearHistory a c | .report a c _ _ =>
    a = address ∧ c = chain
  | .checkTransaction tx _ _ _ | .checkVelocity tx _ => tx.from = address ∧ tx.chain = chain
  | .blockAddress a | .unblockAddress a => a = address
  | .blockChain _ | .unblockChain _ => False

instance (address chain : String) : DecidablePred (Op.On address chain)
  | .addEntry _ | .removeEntry .. | .screenAddress .. | .checkAddress .. | .clearHistory .. | .report ..
  | .checkTransaction .. | .checkVelocity .. => inferInstanceAs (Decidable (_ ∧ _))
  | .blockAddress _ | .unblockAddress _ => inferInstanceAs (Decidable (_ = _))
  | .blockChain _ | .unblockChain _ => inferInstanceAs (Decidable False)

/-- No answer about `A` on the chain depends on earlier calls on `B` there. -/
def Separate (A B chain : String) : Prop :=
  ∀ history op, Op.On A chain op →
    ((Runs.exec (Office.next config window) {} history).handle config window op).1 =
      ((Runs.exec (Office.next config window) {} (history.filter fun earlier => ¬ earlier.On B chain)).handle
        config window op).1

/-! ## What a spelling is remembered for -/

/-- The keys that begin with the lower-case spelling of `B`. -/
def Under (B key : String) : Prop := (B.toLower ++ ":").toList <+: key.toList

/-- The offices remember the same, but for the spelling of `B`. -/
structure Alike (B : String) (o o' : Office) : Prop where
  entries : Dict.AgreeOff (Under B) o.entries o'.entries
  scores : Dict.AgreeOff (Under B) o.scores o'.scores
  windows : Dict.AgreeOff (Under B) o.windows o'.windows
  reports : Dict.AgreeOff (Under B) o.reports o'.reports
  addresses : ∀ spelling, spelling ≠ B.toLower →
    (spelling ∈ o.gate.blockedAddresses ↔ spelling ∈ o'.gate.blockedAddresses)
  chains : o.gate.blockedChains = o'.gate.blockedChains

/-- The call looks at, or writes, what the spelling of `B` is remembered for. -/
def Op.Meets (B : String) : Op → Prop
  | .addEntry entry => Under B (addressKey entry.address entry.chain)
  | .removeEntry a c | .screenAddress a c _ _ | .checkAddress a c _ _ _ _ | .clearHistory a c | .report a c _ _ =>
    Under B (addressKey a c)
  | .checkTransaction tx _ _ _ | .checkVelocity tx _ => Under B (addressKey tx.from tx.chain)
  | .blockAddress a | .unblockAddress a => a.toLower = B.toLower
  | .blockChain _ | .unblockChain _ => False

variable {config window} {A B chain address : String} {o o' : Office} {op : Op} {now answeredAt : Time}

theorem under_of_lower (h : address.toLower = B.toLower) : Under B (addressKey address chain) := by
  rw [Under, addressKey, h, String.toList_append, String.toList_append, String.toList_append]
  exact List.prefix_append _ _

theorem Op.On.meets (h : Op.On B chain op) : op.Meets B := by
  cases op with
  | addEntry entry =>
    obtain ⟨haddress, -⟩ := h
    exact under_of_lower (congrArg String.toLower haddress)
  | removeEntry a c | screenAddress a c | checkAddress a c | clearHistory a c | report a c
  | checkTransaction tx | checkVelocity tx => exact under_of_lower (congrArg String.toLower h.1)
  | blockAddress a | unblockAddress a => exact congrArg String.toLower h
  | blockChain | unblockChain => exact h.elim

theorem Alike.refl (B : String) (o : Office) : Alike B o o where
  entries := .refl _
  scores := .refl _
  windows := .refl _
  reports := .refl _
  addresses _ _ := Iff.rfl
  chains := rfl

theorem Alike.symm (h : Alike B o o') : Alike B o' o where
  entries k hk := (h.entries k hk).symm
  scores k hk := (h.scores k hk).symm
  windows k hk := (h.windows k hk).symm
  reports k hk := (h.reports k hk).symm
  addresses l hl := (h.addresses l hl).symm
  chains := h.chains.symm

theorem Alike.trans {o'' : Office} (h : Alike B o o') (h' : Alike B o' o'') : Alike B o o'' where
  entries k hk := (h.entries k hk).trans (h'.entries k hk)
  scores k hk := (h.scores k hk).trans (h'.scores k hk)
  windows k hk := (h.windows k hk).trans (h'.windows k hk)
  reports k hk := (h.reports k hk).trans (h'.reports k hk)
  addresses l hl := (h.addresses l hl).trans (h'.addresses l hl)
  chains := h.chains.trans h'.chains

/-! ## The scorers -/

section
variable {E : String → Prop} {cache cache' : ScoreCache} {provider provider' : SanctionsProvider}

theorem screenAddress_off (hkey : E (addressKey address chain)) :
    Dict.AgreeOff E (screenAddress config provider now answeredAt address chain cache).2 cache := by
  unfold screenAddress
  split
  · exact .refl _
  · exact Dict.agreeOff_put hkey

/-- What a screening reads and writes. -/
theorem screenAddress_agree (config : BasicRiskScorerConfig) (now answeredAt : Time)
    (hkey : ¬ E (addressKey address chain))
    (hcheck : checkOf provider address chain = checkOf provider' address chain) (h : Dict.AgreeOff E cache cache') :
    (screenAddress config provider now answeredAt address chain cache).1 =
        (screenAddress config provider' now answeredAt address chain cache').1 ∧
      Dict.AgreeOff E (screenAddress config provider now answeredAt address chain cache).2
        (screenAddress config provider' now answeredAt address chain cache').2 := by
  have hcached : cached? cache address chain now = cached? cache' address chain now := by
    rw [cached?, cached?, h _ hkey]
  unfold screenAddress
  rw [hcached, hcheck]
  split
  · exact ⟨rfl, h⟩
  · exact ⟨rfl, h.put⟩

end

/-! ## One call -/

/-- A call that meets the spelling changes nothing but what the spelling is remembered for. -/
theorem handle_blind (h : op.Meets B) : Alike B (o.next config window op) o := by
  cases op with
  | addEntry entry => exact { Alike.refl B o with entries := Dict.agreeOff_put h }
  | removeEntry a c => exact { Alike.refl B o with entries := Dict.agreeOff_erase h }
  | screenAddress a c now answeredAt => exact { Alike.refl B o with scores := screenAddress_off h }
  | checkAddress a c amount now answeredAt gateNow =>
    simp only [Office.next, Office.handle, Compliance.checkAddress]
    split
    · exact Alike.refl B o
    · exact { Alike.refl B o with scores := screenAddress_off h }
  | checkTransaction tx now answeredAt gateNow => exact { Alike.refl B o with scores := screenAddress_off h }
  | blockAddress a =>
    refine { Alike.refl B o with addresses := fun l hl => ?_ }
    have hne : l ≠ a.toLower := fun e => hl (e.trans h)
    simp [Office.next, Office.handle, ComplianceGate.blockAddress, hne]
  | unblockAddress a =>
    refine { Alike.refl B o with addresses := fun l hl => ?_ }
    have hne : l ≠ a.toLower := fun e => hl (e.trans h)
    simp [Office.next, Office.handle, ComplianceGate.unblockAddress, hne]
  | blockChain | unblockChain => exact h.elim
  | checkVelocity tx now => exact { Alike.refl B o with windows := Dict.agreeOff_put h }
  | clearHistory a c => exact { Alike.refl B o with windows := Dict.agreeOff_erase h }
  | report a c received now =>
    refine { Alike.refl B o with reports := ?_ }
    simp only [Office.next, Office.handle, Chainalysis.screenAddress]
    split
    · exact .refl _
    · exact Dict.agreeOff_put h

/-- A call that does not meet the spelling does not see a difference, and makes none. -/
theorem handle_alike (halike : Alike B o o') (h : ¬ op.Meets B) :
    (o.handle config window op).1 = (o'.handle config window op).1 ∧
      Alike B (o.next config window op) (o'.next config window op) := by
  have hcheck (a c : String) (hkey : ¬ Under B (addressKey a c)) :
      checkOf o.provider a c = checkOf o'.provider a c := by
    simp only [checkOf, Office.provider, Option.map_some, halike.entries _ hkey]
  cases op with
  | addEntry entry => exact ⟨rfl, { halike with entries := halike.entries.put }⟩
  | removeEntry a c => exact ⟨rfl, { halike with entries := halike.entries.erase }⟩
  | screenAddress a c now answeredAt =>
    obtain ⟨hrisk, hscores⟩ := screenAddress_agree config now answeredAt h (hcheck a c h) halike.scores
    exact ⟨congrArg Answer.risk hrisk, { halike with scores := hscores }⟩
  | checkAddress a c amount now answeredAt gateNow =>
    have hblocked : blocked? o.gate a c gateNow = blocked? o'.gate a c gateNow := by
      have hspelling := halike.addresses a.toLower fun e => h (under_of_lower e)
      simp only [blocked?, hspelling, halike.chains]
    obtain ⟨hrisk, hscores⟩ := screenAddress_agree config now answeredAt h (hcheck a c h) halike.scores
    simp only [Office.next, Office.handle, Compliance.checkAddress, hblocked]
    split
    · exact ⟨rfl, halike⟩
    · simp only [basicRiskScorer, hrisk]
      exact ⟨trivial, { halike with scores := hscores }⟩
  | checkTransaction tx now answeredAt gateNow =>
    obtain ⟨hrisk, hscores⟩ := screenAddress_agree config now answeredAt h (hcheck tx.from tx.chain h) halike.scores
    simp only [Office.next, Office.handle, Compliance.checkTransaction, basicRiskScorer, screenTransaction, hrisk]
    exact ⟨trivial, { halike with scores := hscores }⟩
  | blockAddress a =>
    refine ⟨rfl, { halike with addresses := fun l hl => ?_ }⟩
    simp [Office.next, Office.handle, ComplianceGate.blockAddress, halike.addresses l hl]
  | unblockAddress a =>
    refine ⟨rfl, { halike with addresses := fun l hl => ?_ }⟩
    simp [Office.next, Office.handle, ComplianceGate.unblockAddress, halike.addresses l hl]
  | blockChain c =>
    exact ⟨rfl, { halike with chains := congrArg (List.insert c) halike.chains }⟩
  | unblockChain c =>
    exact ⟨rfl, { halike with chains := congrArg (List.filter (· ≠ c)) halike.chains }⟩
  | checkVelocity tx now =>
    have hrecords : getWindowRecords o.windows (addressKey tx.from tx.chain) =
        getWindowRecords o'.windows (addressKey tx.from tx.chain) := by
      rw [getWindowRecords, getWindowRecords, halike.windows _ h]
    simp only [Office.next, Office.handle, Compliance.checkVelocity, hrecords]
    exact ⟨trivial, { halike with windows := halike.windows.put }⟩
  | clearHistory a c => exact ⟨rfl, { halike with windows := halike.windows.erase }⟩
  | report a c received now =>
    simp only [Office.next, Office.handle, Chainalysis.screenAddress, halike.reports _ h]
    split
    · exact ⟨rfl, halike⟩
    · exact ⟨rfl, { halike with reports := halike.reports.put }⟩

/-! ## Two addresses -/

theorem toLower_eq_colon {c : Char} (h : c.toLower = ':') : c = ':' := by
  unfold Char.toLower at h
  split at h
  · rename_i hupper
    have hval := congrArg (UInt32.toNat ∘ Char.val) h
    obtain ⟨hlow, hhigh⟩ := hupper
    simp only [ge_iff_le, UInt32.le_iff_toNat_le] at hlow hhigh
    simp only [Function.comp_apply, UInt32.toNat_add] at hval
    change 65 ≤ c.val.toNat at hlow
    change c.val.toNat ≤ 90 at hhigh
    change (c.val.toNat + 32) % 2 ^ 32 = 58 at hval
    omega
  · exact h

theorem toLower_toList (s : String) : s.toLower.toList = s.toList.map Char.toLower := by
  exact String.toList_map

theorem colon_toLower (h : ':' ∉ address.toList) : ':' ∉ address.toLower.toList := by
  rw [toLower_toList]
  intro hmem
  obtain ⟨c, hc, hlower⟩ := List.mem_map.1 hmem
  exact h (toLower_eq_colon hlower ▸ hc)

/-- What comes before the first separator. -/
theorem eq_before_separator {α : Type} {s : α} {xs ys zs : List α} (hx : s ∉ xs) (hy : s ∉ ys)
    (h : xs ++ [s] <+: ys ++ s :: zs) : xs = ys := by
  induction xs generalizing ys with
  | nil =>
    cases ys with
    | nil => rfl
    | cons y ys =>
      obtain ⟨rfl, -⟩ := List.cons_prefix_cons.1 h
      exact absurd List.mem_cons_self hy
  | cons x xs ih =>
    cases ys with
    | nil =>
      obtain ⟨rfl, -⟩ := List.cons_prefix_cons.1 h
      exact absurd List.mem_cons_self hx
    | cons y ys =>
      obtain ⟨rfl, htail⟩ := List.cons_prefix_cons.1 h
      rw [ih (fun hs => hx (List.mem_cons_of_mem _ hs)) (fun hs => hy (List.mem_cons_of_mem _ hs)) htail]

theorem not_under (hA : ':' ∉ A.toList) (hB : ':' ∉ B.toList) (hne : A.toLower ≠ B.toLower) :
    ¬ Under B (addressKey A chain) := by
  intro h
  rw [Under, addressKey, String.toList_append, String.toList_append, String.toList_append, List.append_assoc] at h
  exact hne (String.toList_inj.1 (eq_before_separator (colon_toLower hB) (colon_toLower hA) h)).symm

theorem Op.On.not_meets (h : Op.On A chain op) (hA : ':' ∉ A.toList) (hB : ':' ∉ B.toList)
    (hne : A.toLower ≠ B.toLower) : ¬ op.Meets B := by
  cases op with
  | addEntry entry =>
    obtain ⟨rfl, -⟩ := h
    exact not_under hA hB hne
  | removeEntry a c | screenAddress a c | checkAddress a c | clearHistory a c | report a c
  | checkTransaction tx | checkVelocity tx =>
    obtain ⟨rfl, -⟩ := h
    exact not_under hA hB hne
  | blockAddress a | unblockAddress a =>
    cases h
    exact hne
  | blockChain | unblockChain => exact h.elim

/-- The address is refused as a blocked one. -/
def Answer.Barred (answer : Answer) : Prop :=
  ∃ result, answer = .gate (.ok result) ∧ result.reason = some .manuallyBlocked

theorem barred_of_blocked (h : A.toLower = B.toLower) :
    (((Office.next config window {} (.blockAddress B)).handle config window
      (.checkAddress A chain 0 0 0 0)).1).Barred := by
  have hmem : A.toLower ∈ (ComplianceGate.blockAddress {} B).blockedAddresses := by
    simp [ComplianceGate.blockAddress, h]
  have hblocked : blocked? (ComplianceGate.blockAddress {} B) A chain 0 =
      some { reason := some .manuallyBlocked, riskAssessment := buildBlockedAssessment A chain 0 } := if_pos hmem
  simp only [Office.next, Office.handle, Compliance.checkAddress, hblocked]
  exact ⟨_, rfl, rfl⟩

theorem not_barred : ¬ ((({} : Office).handle config window (.checkAddress A chain 0 0 0 0)).1).Barred := by
  rintro ⟨result, hresult, hreason⟩
  have hopen : blocked? {} A chain 0 = none := rfl
  simp only [Office.handle, Compliance.checkAddress, hopen, basicRiskScorer, Except.map, Answer.gate.injEq,
    Except.ok.injEq] at hresult
  subst hresult
  simp only [screenedAddress] at hreason
  split at hreason
  · cases hreason
  · split at hreason
    · cases hreason
    · split at hreason <;> cases hreason

/-- A block of `B` is used for `A`. -/
theorem not_separate (h : A.toLower = B.toLower) : ¬ Separate config window A B chain := by
  intro hseparate
  have hanswer := hseparate [.blockAddress B] (.checkAddress A chain 0 0 0 0) ⟨rfl, rfl⟩
  rw [List.filter_cons_of_neg (by simp [Op.On]), List.filter_nil, Runs.exec_cons, Runs.exec_nil] at hanswer
  exact not_barred (hanswer ▸ barred_of_blocked h)

/-- **What is known of one address is not used for another just when their lower-case spellings differ.** -/
theorem separate_iff (config : BasicRiskScorerConfig) (window : VelocityWindow) (A B chain : String)
    (hA : ':' ∉ A.toList) (hB : ':' ∉ B.toList) :
    Separate config window A B chain ↔ A.toLower ≠ B.toLower := by
  constructor
  · exact fun h hsame => not_separate hsame h
  · intro hne history op hop
    refine (handle_alike ?_ (hop.not_meets hA hB hne)).1
    refine Runs.exec_filter (fun o o' op h hop => ?_) (fun o o' op h => ?_) (Alike.refl B {}) history
    · exact (handle_blind hop.meets).trans h
    · by_cases hmeets : op.Meets B
      · exact ((handle_blind hmeets).trans h).trans (handle_blind hmeets).symm
      · exact (handle_alike h hmeets).2

/-! ## Accounts that differ in case -/

theorem no_colon_of_base58 (h : address.toList.all (base58Chars.toList.contains ·)) : ':' ∉ address.toList := by
  intro hmem
  exact absurd (List.all_eq_true.1 h ':' hmem) (by decide)

/-- The addresses that a Solana client accepts are told apart by what is before the chain in a key. -/
theorem Solana.no_colon (h : Solana.validateAddress address = true) : ':' ∉ address.toList := by
  simp only [Solana.validateAddress, Bool.and_eq_true] at h
  exact no_colon_of_base58 h.2

theorem Tron.no_colon (h : Tron.validateAddress address = true) : ':' ∉ address.toList := by
  simp only [Tron.validateAddress, Bool.and_eq_true, decide_eq_true_iff] at h
  obtain ⟨⟨-, hhead⟩, htail⟩ := h
  cases hchars : address.toList with
  | nil => exact List.not_mem_nil
  | cons c cs =>
    rw [hchars] at hhead htail
    cases hhead
    intro hmem
    rcases List.mem_cons.1 hmem with hc | hcs
    · cases hc
    · exact absurd (List.all_eq_true.1 htail ':' hcs) (by decide)

/-- The rule for two addresses that differ in more than case. -/
theorem separate_iff_distinct :
    Separate {} {} "0xabc" "0xabd" "1" ↔ ("0xabc" : String).toLower ≠ "0xabd".toLower :=
  separate_iff {} {} "0xabc" "0xabd" "1" (by decide) (by decide)

/-- Two Solana addresses that differ in the case of their last letter. -/
def solanaPair : String × String :=
  ("7xKXtg2CW87d97TXJSDpbD5jBkheTqA83TZRuJosgAsu", "7xKXtg2CW87d97TXJSDpbD5jBkheTqA83TZRuJosgAsU")

def tronPair : String × String := ("TJRabPrwbZy45sbavfcjinPJC18kjpRTv8", "TJRabPrwbZy45sbavfcjinPJC18kjpRTV8")

/-- Both are valid and different, and blocking one bars the other. -/
theorem twins_not_separate :
    (Solana.validateAddress solanaPair.1 ∧ Solana.validateAddress solanaPair.2 ∧ solanaPair.1 ≠ solanaPair.2 ∧
      ¬ Separate {} {} solanaPair.1 solanaPair.2 "solana") ∧
    (Tron.validateAddress tronPair.1 ∧ Tron.validateAddress tronPair.2 ∧ tronPair.1 ≠ tronPair.2 ∧
      ¬ Separate {} {} tronPair.1 tronPair.2 "tron") := by
  refine ⟨⟨by decide +kernel, by decide +kernel, by decide, not_separate ?_⟩,
    by decide +kernel, by decide +kernel, by decide, not_separate ?_⟩ <;>
    · rw [← String.toList_inj, toLower_toList, toLower_toList]
      decide +kernel

end NexoraGateway.Compliance
