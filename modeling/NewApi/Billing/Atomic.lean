import NewApi.Billing.Wallet
import NewApi.Subscription.Bound

/-!
# All or nothing

`preConsume` takes from the token and then from the funding source, `Reserve` from the funding source and then
from the token, and each gives the first back where the second fails. `NewBillingSession` makes the session on
the wallet of the user or on a subscription, by the preference of the user, and on the other one where the
quota of the first is not enough.

Whichever updates fail, where none is one that gives something back, a call that fails leaves the stores as they
were, and a call that succeeds has charged the funding source of its session and no other (`session_atomic`).
-/

namespace NewApi.Billing.Atomic

open Wallet (Refusal)
open SubscriptionQuota (UsedNonneg)

/-! ## Making a session -/

/-- The preferences of `NormalizeBillingPreference`. -/
inductive BillingPreference
  | subscriptionFirst
  | walletFirst
  | subscriptionOnly
  | walletOnly
deriving DecidableEq

/-- `NormalizeBillingPreference`. -/
def normalizeBillingPreference (pref : String) : BillingPreference :=
  match GoString.trimSpace pref with
  | "wallet_first" => .walletFirst
  | "subscription_only" => .subscriptionOnly
  | "wallet_only" => .walletOnly
  | _ => .subscriptionFirst

/-- What surrounds `NewBillingSession`: its attempt on the wallet, its attempt on a subscription, and the count
of the active subscriptions, which may fail. -/
structure Env where
  billingPreference : String := ""
  requestId : String := ""
  wallet : Wallet.Env := {}
  subscription : BillingEnv := {}
  countFails : Bool := false

/-- Why there is no session. -/
inductive SessionError
  | invalidRequest
  | refused (e : Refusal)
deriving DecidableEq

/-- The code of the refusal is `ErrorCodeInsufficientUserQuota`. -/
def insufficientUserQuota : Refusal → Bool
  | .insufficientUserQuota _ => true
  | .preConsumeFailed _ _ => true
  | .api (.insufficientUserQuota _) => true
  | _ => false

/-- `HasActiveUserSubscription`. -/
def hasActiveUserSubscription (fails : Bool) (userId : Nat) (now : Int) (s : SubscriptionStore) :
    Option Bool :=
  if userId = 0 then none
  else if fails then none
  else some (s.subs.rows.any fun sub => sub.userId = userId ∧ sub.status = .active ∧ sub.endTime > now)

variable (cal : Calendar)

/-- The end of an attempt: the session that was made is pre-consumed. -/
def attempt (env : BillingEnv) (quota : Int) (b : State) : Except Refusal BillingSession × Store :=
  match b.preConsume cal env quota with
  | (some e, b) => (.error (.api e), b.store)
  | (none, b) => (.ok b.session, b.store)

/-- `tryWallet`. -/
def tryWallet (env : Env) (info : RelayInfo) (preConsumedQuota : Int) (store : Store) :
    Except Refusal BillingSession × Store :=
  match Wallet.getUserQuota env.wallet info.userId store with
  | none => (.error .queryDataError, store)
  | some userQuota =>
    if userQuota ≤ 0 then (.error (.insufficientUserQuota userQuota), store)
    else if wrap64 (userQuota - preConsumedQuota) < 0 then
      (.error (.preConsumeFailed userQuota preConsumedQuota), store)
    else
      attempt cal env.wallet.billing preConsumedQuota
        (start { info with userQuota := userQuota } (.wallet { userId := info.userId }) store)

/-- What `trySubscription` consumes. -/
def subConsume (preConsumedQuota : Int) : Int := if preConsumedQuota ≤ 0 then 1 else preConsumedQuota

/-- The funding source that `trySubscription` makes. -/
def subscriptionFunding (env : Env) (info : RelayInfo) (preConsumedQuota : Int) : SubscriptionFunding :=
  { requestId := env.requestId, userId := info.userId, amount := subConsume preConsumedQuota }

/-- `trySubscription`. -/
def trySubscription (env : Env) (info : RelayInfo) (preConsumedQuota : Int) (store : Store) :
    Except Refusal BillingSession × Store :=
  attempt cal env.subscription (subConsume preConsumedQuota)
    (start info (.subscription (subscriptionFunding env info preConsumedQuota)) store)

/-- The second attempt follows a first one that has not enough quota. -/
def fallback (first : Except Refusal BillingSession × Store)
    (second : Store → Except Refusal BillingSession × Store) : Except Refusal BillingSession × Store :=
  match first with
  | (.ok session, store) => (.ok session, store)
  | (.error e, store) => if insufficientUserQuota e then second store else (.error e, store)

/-- The switch of `NewBillingSession` over the preference. -/
def byPreference (env : Env) (info : RelayInfo) (preConsumedQuota : Int) (store : Store) :
    Except Refusal BillingSession × Store :=
  match normalizeBillingPreference env.billingPreference with
  | .subscriptionOnly => trySubscription cal env info preConsumedQuota store
  | .walletOnly => tryWallet cal env info preConsumedQuota store
  | .walletFirst =>
    fallback (tryWallet cal env info preConsumedQuota store)
      (trySubscription cal env info preConsumedQuota)
  | .subscriptionFirst =>
    match hasActiveUserSubscription env.countFails info.userId env.subscription.now store.subscriptions with
    | none => (.error .queryDataError, store)
    | some false => tryWallet cal env info preConsumedQuota store
    | some true =>
      fallback (trySubscription cal env info preConsumedQuota store)
        (tryWallet cal env info preConsumedQuota)

/-- `NewBillingSession`. -/
def newBillingSession (env : Env) (relayInfo : Option RelayInfo) (preConsumedQuota : Int) (store : Store) :
    Except SessionError BillingSession × Store :=
  match relayInfo with
  | none => (.error .invalidRequest, store)
  | some info =>
    match byPreference cal env info preConsumedQuota store with
    | (.error e, store) => (.error (.refused e), store)
    | (.ok session, store) => (.ok session, store)

/-! ## Charges -/

/-- The updates that give something back succeed. -/
structure Compensates (env : BillingEnv) : Prop where
  token : env.fails .tokenRollback = false
  funding : env.fails .fundingRollback = false

/-- The quota that `preConsume` takes: nothing, where the user is trusted. -/
def effectiveQuota (env : BillingEnv) (quota : Int) (s : BillingSession) : Int :=
  if s.shouldTrust env then 0 else quota

/-- The session once it has been checked for trust. -/
def checkTrust (env : BillingEnv) (s : BillingSession) : BillingSession :=
  if s.shouldTrust env then { s with trusted := true } else s

/-- The token of a request gives a quota, unless the request comes from the playground. -/
def TokenGives (info : RelayInfo) (quota : Int) (s s' : Store) : Prop :=
  s'.tokens = if 0 < quota ∧ info.isPlayground = false then (s.consumeToken info.tokenId quota).tokens
    else s.tokens

/-- The wallet of a user gives a quota, and no subscription does. -/
def WalletGives (userId : Nat) (quota : Int) (s s' : SubscriptionStore) : Prop :=
  s' = if 0 < quota then { s with users := s.users.addQuota userId (-quota) } else s

/-- The request has pre-consumed before, or one subscription of the user gives the amount, after the reset of
those whose reset time has come. No wallet gives anything. -/
structure SubscriptionGives (env : BillingEnv) (sub : SubscriptionFunding) (s s' : SubscriptionStore) :
    Prop where
  users : s'.users = s.users
  subs : (∃ record, s.records.get? sub.requestId = some record ∧ record.status ≠ .refunded ∧ s' = s) ∨
    s.records.get? sub.requestId = none ∧ ∃ c ∈ s.candidates sub.userId env.now,
      ∃ due : List UserSubscription,
        (∀ p ∈ due, p ∈ s.candidates sub.userId env.now ∧ Resets cal env.planById env.now p) ∧
          ∀ id, s'.usedOf id = (if id ∈ due.map UserSubscription.id then 0 else s.usedOf id) +
            if id = c.id then sub.amount else 0

/-- The funding source gives a quota, a subscription the amount that it was made for. -/
def FundingGives (env : BillingEnv) (quota : Int) (s s' : SubscriptionStore) : FundingSource → Prop
  | .wallet w => WalletGives w.userId quota s s'
  | .subscription sub => SubscriptionGives cal env sub s s'

/-- The funding source of a session gives the quota that the session reserves. -/
def FundingReserves (quota : Int) (s s' : SubscriptionStore) : FundingSource → Prop
  | .wallet w => WalletGives w.userId quota s s'
  | .subscription sub => s'.users = s.users ∧
      ∀ id, s'.usedOf id = s.usedOf id + if id = sub.subscriptionId then quota else 0

/-- `preConsume` has charged the token and the funding source of a session. -/
structure PreConsumed (env : BillingEnv) (quota : Int) (b b' : State) : Prop where
  preConsumedQuota : b'.session.preConsumedQuota = effectiveQuota env quota b.session
  trusted : b'.session.trusted = (checkTrust env b.session).trusted
  source : b'.session.funding.source = b.session.funding.source
  token : TokenGives b.session.relayInfo (effectiveQuota env quota b.session) b.store b'.store
  funding : FundingGives cal env (effectiveQuota env quota b.session) b.store.subscriptions
    b'.store.subscriptions b.session.funding

/-- `preConsume` of a session that has not consumed from its token is all or nothing. The counters of a
session of the playground are left open where it fails. -/
structure PreConsumeAtomic (env : BillingEnv) (quota : Int) (b : State) : Prop where
  error : ∀ e b', b.preConsume cal env quota = (some e, b') → b'.store = b.store ∧
    (b.session.relayInfo.isPlayground = false → b'.session = b.session)
  ok : ∀ b', b.preConsume cal env quota = (none, b') → PreConsumed cal env quota b b'

/-- `Reserve` does nothing for the session. -/
def NothingToReserve (targetQuota : Int) (s : BillingSession) : Prop :=
  s.settled ∨ s.refunded ∨ s.trusted ∨ targetQuota ≤ s.preConsumedQuota

/-- `Reserve` is all or nothing. -/
structure ReserveAtomic (env : BillingEnv) (targetQuota : Int) (b : State) : Prop where
  idle : NothingToReserve targetQuota b.session → b.reserve env targetQuota = (none, b)
  error : ∀ e b', b.reserve env targetQuota = (some e, b') → b' = b
  ok : ∀ b', ¬ NothingToReserve targetQuota b.session → b.reserve env targetQuota = (none, b') →
    let delta := targetQuota - b.session.preConsumedQuota
    b'.session.preConsumedQuota = targetQuota ∧
      TokenGives b.session.relayInfo delta b.store b'.store ∧
      FundingReserves delta b.store.subscriptions b'.store.subscriptions b.session.funding

/-- The session of a request has been charged: the wallet of the user, by the quota unless the user is
trusted, or a subscription of the user, by one where the quota is not positive. -/
def SessionCharged (env : Env) (info : RelayInfo) (preConsumedQuota : Int) (s s' : Store)
    (session : BillingSession) : Prop :=
  TokenGives info session.preConsumedQuota s s' ∧
    match session.funding with
    | .wallet _ =>
      (session.preConsumedQuota = 0 ∧ session.trusted ∨ session.preConsumedQuota = preConsumedQuota) ∧
        WalletGives info.userId session.preConsumedQuota s.subscriptions s'.subscriptions
    | .subscription _ =>
      session.preConsumedQuota = subConsume preConsumedQuota ∧
        SubscriptionGives cal env.subscription (subscriptionFunding env info preConsumedQuota)
          s.subscriptions s'.subscriptions

/-- `NewBillingSession` is all or nothing. -/
structure NewSessionAtomic (env : Env) (relayInfo : Option RelayInfo) (preConsumedQuota : Int)
    (store : Store) : Prop where
  error : ∀ e store', newBillingSession cal env relayInfo preConsumedQuota store = (.error e, store') →
    store' = store
  ok : ∀ session store',
    newBillingSession cal env relayInfo preConsumedQuota store = (.ok session, store') →
    ∃ info, relayInfo = some info ∧ SessionCharged cal env info preConsumedQuota store store' session

section
variable {cal} {env : BillingEnv} {quota delta : Int} {s s' : BillingSession} {store store' : Store}
  {b b' : State} {info : RelayInfo} {id : Nat} {subs subs' : SubscriptionStore}

/-! ## Giving back -/

omit cal in
theorem consumeToken_cancel : (store.consumeToken id quota).consumeToken id (-quota) = store := by
  unfold Store.consumeToken
  dsimp only
  rw [Table.modify_modify_cancel]
  intro token _ _
  simp only [Token.consume, Int.sub_neg, Int.sub_add_cancel, Int.add_neg_cancel_right]

omit cal in
theorem addQuota_cancel {users : Users} : (users.addQuota id (-quota)).addQuota id quota = users := by
  unfold Users.addQuota
  rw [Table.modify_modify_cancel]
  intro user _ _
  simp only [Int.neg_add_cancel_right]

omit cal in
theorem addUserQuota_cancel : (store.addUserQuota id (-quota)).addUserQuota id quota = store := by
  unfold Store.addUserQuota
  dsimp only
  rw [addQuota_cancel]

omit cal in
theorem preConsumeTokenQuota_cases (h : preConsumeTokenQuota env info quota store = .ok store') :
    info.isPlayground = true ∧ store' = store ∨
      info.isPlayground = false ∧ store' = store.consumeToken info.tokenId quota := by
  cases hinfo : info.isPlayground with
  | false => exact .inr ⟨rfl, preConsumeTokenQuota_ok hinfo h⟩
  | true =>
    unfold preConsumeTokenQuota at h
    rw [hinfo] at h
    split at h
    · cases h
    rw [if_pos rfl] at h
    cases h
    exact .inl ⟨rfl, rfl⟩

omit cal in
/-- The token part of `preConsume` is undone by its rollback. -/
theorem rollbackToken_preConsumeToken (hback : env.fails .tokenRollback = false)
    (hfresh : s.tokenConsumed = 0) (h : State.preConsumeToken env quota s store = .ok (s', store')) :
    (State.rollbackToken env s' store').2 = store ∧
      (s.relayInfo.isPlayground = false → (State.rollbackToken env s' store').1 = s) := by
  unfold State.rollbackToken
  rcases preConsumeToken_cases h with ⟨hpos, rfl, htoken⟩ | ⟨-, rfl, rfl⟩
  · rcases preConsumeTokenQuota_cases htoken with ⟨hplay, rfl⟩ | ⟨hplay, rfl⟩
    · rw [if_neg fun hand => by simp [hplay] at hand]
      exact ⟨rfl, fun hnot => by simp [hplay] at hnot⟩
    · rw [if_pos ⟨hpos, hplay⟩]
      unfold Store.increaseTokenQuota
      rw [hback, guarded_ok (Int.le_of_lt hpos), consumeToken_cancel]
      refine ⟨rfl, fun _ => ?_⟩
      obtain ⟨info, funding, pre, consumed, extra, trusted, fs, settled, refunded⟩ := s
      cases hfresh
      rfl
  · rw [if_neg fun hand => by omega]
    exact ⟨rfl, fun _ => rfl⟩

omit cal in
/-- The token gives the quota that `preConsume` takes. -/
theorem tokenGives_preConsumeToken (h : State.preConsumeToken env quota s store = .ok (s', store')) :
    TokenGives s.relayInfo quota store store' := by
  unfold TokenGives
  rcases preConsumeToken_cases h with ⟨hpos, -, htoken⟩ | ⟨hle, -, rfl⟩
  · rcases preConsumeTokenQuota_cases htoken with ⟨hplay, rfl⟩ | ⟨hplay, rfl⟩
    · rw [if_neg fun hand => by simp [hplay] at hand]
    · rw [if_pos ⟨hpos, hplay⟩]
  · rw [if_neg fun hand => Int.not_lt.2 hle hand.1]

/-! ## Pre-consuming -/

theorem subscriptionGives_preConsume {sub : SubscriptionFunding} {res : SubscriptionPreConsumeResult}
    {fails : Bool}
    (h : subs.preConsumeUserSubscription cal env.planById fails sub.requestId sub.userId sub.amount
      env.now = .ok (res, subs')) : SubscriptionGives cal env sub subs subs' := by
  rcases preConsume_spec h with ⟨record, -, hrecord, hstatus, -, rfl, -⟩ |
    ⟨hfree, -, before, c, after, row, hcands, hat, -, husers, -⟩
  · exact ⟨rfl, .inl ⟨record, hrecord, hstatus, rfl⟩⟩
  · obtain ⟨hin, hnodup⟩ := candidates_append hcands
    have hsub : ∀ p ∈ before ++ [c], p ∈ subs.candidates sub.userId env.now := by
      intro p hp
      rw [hcands, List.append_cons]
      exact List.mem_append_left _ hp
    refine ⟨husers, .inr ⟨hfree, c, hsub c (by simp),
      (before ++ [c]).filter fun p => Resets cal env.planById env.now p, ?_, fun id => ?_⟩⟩
    · intro p hp
      obtain ⟨hmem, hresets⟩ := List.mem_filter.1 hp
      exact ⟨hsub p hmem, of_decide_eq_true hresets⟩
    · rw [hat.usedOf hin hnodup]
      congr 1
      simp only [List.mem_map, List.mem_filter, decide_eq_true_eq, and_assoc]
      congr 1
      refine propext (exists_congr fun p => and_congr_right fun _ => and_comm)

theorem fundingGives_preConsume {f f' : FundingSource}
    (h : f.preConsume cal env quota store = .ok (f', store')) :
    FundingGives cal env quota store.subscriptions store'.subscriptions f ∧
      store'.tokens = store.tokens ∧ f'.source = f.source := by
  cases f with
  | wallet w =>
    unfold FundingGives WalletGives
    dsimp only
    rcases @Wallet.preConsume_wallet_cases cal store ⟨env, none, false⟩ w quota with
      ⟨hpos, -, heq⟩ | ⟨-, -, heq⟩ | ⟨hle, heq⟩
    · cases heq.symm.trans h
      rw [if_pos hpos]
      exact ⟨rfl, rfl, rfl⟩
    · cases heq.symm.trans h
    · cases heq.symm.trans h
      rw [if_neg (Int.not_lt.2 hle)]
      exact ⟨rfl, rfl, rfl⟩
  | subscription sub =>
    unfold FundingSource.preConsume at h
    dsimp only at h
    split at h
    · cases h
    next res subscriptions hpre =>
      cases h
      exact ⟨subscriptionGives_preConsume hpre, rfl, rfl⟩

/-- `preConsume`, below the check for trust, that fails. -/
theorem preConsumeEffective_error {e : ApiError} (hback : env.fails .tokenRollback = false)
    (hfresh : s.tokenConsumed = 0)
    (h : State.preConsumeEffective cal env quota s store = (some e, s', store')) :
    store' = store ∧ (s.relayInfo.isPlayground = false → s' = s) := by
  unfold State.preConsumeEffective at h
  split at h
  · cases h
    exact ⟨rfl, fun _ => rfl⟩
  next s₁ store₁ htoken =>
    split at h
    · obtain ⟨hstore, hsession⟩ := rollbackToken_preConsumeToken hback hfresh htoken
      rw [Prod.mk.injEq] at h
      rw [h.2] at hstore hsession
      exact ⟨hstore, hsession⟩
    · cases h

/-- `preConsume`, below the check for trust, that succeeds. -/
theorem preConsumeEffective_ok
    (h : State.preConsumeEffective cal env quota s store = (none, s', store')) :
    s'.preConsumedQuota = quota ∧ s'.trusted = s.trusted ∧ s'.funding.source = s.funding.source ∧
      TokenGives s.relayInfo quota store store' ∧
      FundingGives cal env quota store.subscriptions store'.subscriptions s.funding := by
  unfold State.preConsumeEffective at h
  split at h
  · cases h
  next s₁ store₁ htoken =>
    have hgives := tokenGives_preConsumeToken htoken
    obtain ⟨hfunding, -, hsubs⟩ := @Wallet.preConsumeToken_ok _ ⟨env, none, false⟩ _ _ _ _ htoken
    split at h
    · cases h
    next funding store₂ hpre =>
      obtain ⟨hpaid, htokens, hsource⟩ := fundingGives_preConsume hpre
      cases h
      refine ⟨rfl, ?_, hsource.trans (by rw [hfunding]), ?_, ?_⟩
      · show s₁.trusted = s.trusted
        rcases preConsumeToken_cases htoken with ⟨-, rfl, -⟩ | ⟨-, rfl, -⟩ <;> rfl
      · unfold TokenGives
        rw [htokens]
        exact hgives
      · rw [← hsubs, ← hfunding]
        exact hpaid

omit cal in
theorem checkTrust_funding : (checkTrust env s).funding = s.funding := by
  unfold checkTrust
  split <;> rfl

omit cal in
theorem checkTrust_relayInfo : (checkTrust env s).relayInfo = s.relayInfo := by
  unfold checkTrust
  split <;> rfl

/-- `preConsume` is its part below the check for trust. -/
theorem preConsume_eq : b.preConsume cal env quota =
    let r := State.preConsumeEffective cal env (effectiveQuota env quota b.session)
      (checkTrust env b.session) b.store
    (r.1, { b with session := r.2.1, store := r.2.2 }) := rfl

omit cal in
theorem wallet_of_shouldTrust (h : s.shouldTrust env = true) : ∃ w, s.funding = .wallet w := by
  unfold BillingSession.shouldTrust at h
  split at h
  · cases h
  split at h
  · cases h
  split at h
  · cases h
  split at h
  next w hw => exact ⟨w, hw⟩
  · cases h

theorem preConsumeEffective_zero {w : WalletFunding} (hw : s.funding = .wallet w) :
    (State.preConsumeEffective cal env 0 s store).1 = none := by
  unfold State.preConsumeEffective State.preConsumeToken
  rw [if_neg (Int.lt_irrefl 0)]
  dsimp only
  rw [hw]
  unfold FundingSource.preConsume
  dsimp only
  rw [if_pos (Int.le_refl 0)]

theorem preConsumeAtomic (hback : env.fails .tokenRollback = false)
    (hfresh : b.session.tokenConsumed = 0) : PreConsumeAtomic cal env quota b := by
  refine ⟨fun e b' h => ?_, fun b' h => ?_⟩
  · rw [preConsume_eq, Prod.mk.injEq] at h
    obtain ⟨he, rfl⟩ := h
    cases htrust : b.session.shouldTrust env with
    | true =>
      obtain ⟨w, hw⟩ := wallet_of_shouldTrust htrust
      have hzero : effectiveQuota env quota b.session = 0 := if_pos htrust
      rw [hzero, preConsumeEffective_zero (checkTrust_funding.trans hw)] at he
      cases he
    | false =>
      have hsame : checkTrust env b.session = b.session :=
        if_neg fun h => Bool.false_ne_true (htrust.symm.trans h)
      rw [hsame] at he ⊢
      exact preConsumeEffective_error hback hfresh (Prod.ext he rfl)
  · rw [preConsume_eq, Prod.mk.injEq] at h
    obtain ⟨he, rfl⟩ := h
    obtain ⟨hquota, htrusted, hsource, htoken, hfunding⟩ := preConsumeEffective_ok (Prod.ext he rfl)
    rw [checkTrust_relayInfo] at htoken
    rw [checkTrust_funding] at hsource hfunding
    exact ⟨hquota, htrusted, hsource, htoken, hfunding⟩

/-! ## Reserving -/

/-- A subscription whose used amount has grown. -/
structure Grows (id : Nat) (delta : Int) (subs subs' : SubscriptionStore) : Prop where
  users : subs'.users = subs.users
  used : ∀ id', subs'.usedOf id' = subs.usedOf id' + if id' = id then delta else 0
  /-- The opposite change undoes it. -/
  undone : subs'.postConsumeUserSubscriptionDelta false id (-delta) = .ok subs

omit cal in
theorem grows_postConsume {fails : Bool} (hdelta : 0 < delta) (hused : UsedNonneg subs)
    (h : subs.postConsumeUserSubscriptionDelta fails id delta = .ok subs') : Grows id delta subs subs' := by
  rcases postConsume_spec h with ⟨hzero, -⟩ | ⟨-, sub, hat⟩
  · omega
  have hrow : ∀ row ∈ subs.subs, 0 ≤ row.amountUsed := fun row hrow =>
    SubscriptionStore.usedOf_of_get? (Table.get?_key hrow) ▸ hused row.id
  have hnonneg : 0 ≤ sub.amountUsed := hrow sub (Table.mem_of_get? hat.found)
  refine ⟨hat.users, fun id' => ?_, ?_⟩
  · rw [hat.usedOf]
    split
    next hid =>
      rw [hid, SubscriptionStore.usedOf_of_get? hat.found]
      omega
    next => rw [Int.add_zero]
  unfold SubscriptionStore.postConsumeUserSubscriptionDelta at h ⊢
  split at h
  · cases h
  next hid =>
  rw [if_neg (by omega : ¬ delta = 0)] at h
  split at h
  · cases h
  rw [hat.found] at h
  dsimp only at h
  split at h
  · cases h
  next hfits =>
  cases h
  rw [if_neg hid, if_neg (by omega : ¬ -delta = 0), if_neg Bool.false_ne_true, hat.settled]
  dsimp only [SubscriptionStore.addUsed]
  have hback : max 0 (max 0 (sub.amountUsed + delta) + -delta) = sub.amountUsed := by omega
  rw [hback, if_neg (fun hover => hfits ⟨hover.1, by omega⟩), Table.modify_modify_cancel]
  intro row hmem hkey
  have hrow_nonneg : 0 ≤ row.amountUsed := hrow row hmem
  have hcancel : max 0 (max 0 (row.amountUsed + delta) + -delta) = row.amountUsed := by omega
  simp only [SubscriptionStore.addUsed, hcancel]

omit cal in
/-- The funding source gives the quota that is reserved, and takes it back. -/
theorem reserveFunding_ok {f f' : FundingSource} (hdelta : 0 < delta)
    (hused : UsedNonneg store.subscriptions) (hback : env.fails .fundingRollback = false)
    (h : State.reserveFunding env delta store f = .ok (f', store')) :
    FundingReserves delta store.subscriptions store'.subscriptions f ∧ store'.tokens = store.tokens ∧
      State.rollbackFundingReserve env delta store' f' = (f, store) := by
  unfold State.reserveFunding at h
  cases f with
  | wallet w =>
    dsimp only at h
    split at h
    · cases h
    next hok =>
      cases h
      unfold Store.decreaseUserQuota guarded at hok
      rw [if_neg (by omega)] at hok
      split at hok
      · cases hok
      cases hok
      refine ⟨?_, rfl, ?_⟩
      · unfold FundingReserves WalletGives
        dsimp only
        rw [if_pos hdelta]
        rfl
      · unfold State.rollbackFundingReserve Store.increaseUserQuota
        dsimp only
        rw [hback, guarded_ok (Int.le_of_lt hdelta), addUserQuota_cancel]
        dsimp only
        rw [Int.add_sub_cancel]
  | subscription sub =>
    dsimp only at h
    split at h
    · cases h
    next hok =>
      cases h
      unfold Store.postConsumeSubscription at hok
      split at hok
      · cases hok
      next subs hpost =>
        cases hok
        have hgrows := grows_postConsume hdelta hused hpost
        refine ⟨⟨hgrows.users, hgrows.used⟩, rfl, ?_⟩
        unfold State.rollbackFundingReserve Store.postConsumeSubscription
        dsimp only
        rw [hback, hgrows.undone]
        rfl

omit cal in
theorem tokenGives_reserveToken {info : RelayInfo} (hdelta : 0 < delta)
    (h : State.reserveToken env delta info store = .ok store') :
    TokenGives info delta store store' ∧ store'.subscriptions = store.subscriptions := by
  unfold State.reserveToken at h
  unfold TokenGives
  split at h
  next hskip =>
    cases h
    rcases hskip with hle | hplay
    · omega
    · rw [if_neg fun hand => by simp [hplay] at hand]
      exact ⟨rfl, rfl⟩
  next hnot =>
    split at h
    · cases h
    next hok =>
      cases h
      rcases preConsumeTokenQuota_cases hok with ⟨hplay, -⟩ | ⟨hplay, rfl⟩
      · exact absurd (.inr hplay) hnot
      · rw [if_pos ⟨hdelta, hplay⟩]
        exact ⟨rfl, rfl⟩

omit cal in
theorem reserveAtomic (hused : UsedNonneg b.store.subscriptions)
    (hback : env.fails .fundingRollback = false) : ReserveAtomic env quota b := by
  refine ⟨fun hidle => if_pos hidle, fun e b' h => ?_, fun b' hbusy h => ?_⟩
  · unfold State.reserve at h
    dsimp only at h
    split at h
    · cases h
    next hbusy =>
    have hdelta : 0 < quota - b.session.preConsumedQuota := by
      simp only [not_or] at hbusy
      omega
    split at h
    · cases h
      rfl
    next funding store hfunding =>
    obtain ⟨-, -, hundone⟩ := reserveFunding_ok hdelta hused hback hfunding
    split at h
    · rw [hundone] at h
      cases h
      rfl
    · cases h
  · unfold State.reserve at h
    dsimp only at h
    have hdelta : 0 < quota - b.session.preConsumedQuota := by
      simp only [NothingToReserve, not_or] at hbusy
      omega
    split at h
    next hidle => exact absurd hidle hbusy
    split at h
    · cases h
    next funding store hfunding =>
    obtain ⟨hreserves, htokens, -⟩ := reserveFunding_ok hdelta hused hback hfunding
    split at h
    · cases h
    next store' htoken =>
    cases h
    obtain ⟨hgives, hsubs⟩ := tokenGives_reserveToken hdelta htoken
    refine ⟨?_, ?_, ?_⟩
    · show b.session.preConsumedQuota + (quota - b.session.preConsumedQuota) = quota
      omega
    · unfold TokenGives Store.consumeToken at hgives ⊢
      dsimp only at hgives ⊢
      rw [hgives, htokens]
    · dsimp only
      rw [hsubs]
      exact hreserves

/-! ## Making a session -/

/-- A call that makes a session leaves the stores where it refuses, and has charged the session's funding
source where it does not. -/
structure Makes (P : Store → Store → BillingSession → Prop) (store : Store)
    (r : Except Refusal BillingSession × Store) : Prop where
  refused : ∀ e store', r = (.error e, store') → store' = store
  made : ∀ session store', r = (.ok session, store') → P store store' session

omit cal in
theorem makes_refused {P : Store → Store → BillingSession → Prop} {e : Refusal} :
    Makes P store (.error e, store) := by
  refine ⟨fun e' store' h => ?_, fun session store' h => ?_⟩
  · cases h
    rfl
  · cases h

omit cal in
theorem Makes.fallback {P : Store → Store → BillingSession → Prop}
    {first : Except Refusal BillingSession × Store}
    {second : Store → Except Refusal BillingSession × Store} (h₁ : Makes P store first)
    (h₂ : Makes P store (second store)) : Makes P store (fallback first second) := by
  obtain ⟨r, store₁⟩ := first
  cases r with
  | ok session => exact h₁
  | error e =>
    cases h₁.refused e store₁ rfl
    unfold Atomic.fallback
    dsimp only
    split
    · exact h₂
    · exact makes_refused

theorem PreConsumed.quota_cases {f : FundingSource} (h : PreConsumed cal env quota (start info f store) b) :
    b.session.preConsumedQuota = quota ∨
      b.session.preConsumedQuota = 0 ∧ b.session.trusted = true ∧ f.source = .wallet := by
  rw [h.preConsumedQuota, h.trusted]
  unfold effectiveQuota checkTrust
  cases htrust : (start info f store).session.shouldTrust env with
  | true =>
    obtain ⟨w, hw⟩ := wallet_of_shouldTrust htrust
    have hsource : f = .wallet w := hw
    exact .inr ⟨rfl, rfl, by rw [hsource]; rfl⟩
  | false => exact .inl rfl

theorem makes_attempt (hback : env.fails .tokenRollback = false) {f : FundingSource}
    {P : Store → Store → BillingSession → Prop}
    (hP : ∀ b, PreConsumed cal env quota (start info f store) b → P store b.store b.session) :
    Makes P store (attempt cal env quota (start info f store)) := by
  have hatomic : PreConsumeAtomic cal env quota (start info f store) := preConsumeAtomic hback rfl
  unfold attempt
  refine ⟨fun e store' h => ?_, fun session store' h => ?_⟩
  · split at h
    next e' b hpre =>
      cases h
      exact (hatomic.error e' b hpre).1
    · cases h
  · split at h
    · cases h
    next b hpre =>
      cases h
      exact hP b (hatomic.ok b hpre)

variable {senv : Env}

theorem makes_tryWallet (hback : senv.wallet.billing.fails .tokenRollback = false) :
    Makes (SessionCharged cal senv info quota) store (tryWallet cal senv info quota store) := by
  unfold tryWallet
  split
  · exact makes_refused
  next userQuota _ =>
  split
  · exact makes_refused
  split
  · exact makes_refused
  refine makes_attempt hback fun b hb => ?_
  have htoken : TokenGives info b.session.preConsumedQuota store b.store := by
    rw [hb.preConsumedQuota]
    exact hb.token
  have hfunding : WalletGives info.userId b.session.preConsumedQuota store.subscriptions
      b.store.subscriptions := by
    rw [hb.preConsumedQuota]
    exact hb.funding
  refine ⟨htoken, ?_⟩
  have hsource : b.session.funding.source = .wallet := hb.source
  split
  · refine ⟨?_, hfunding⟩
    rcases hb.quota_cases with hquota | ⟨hzero, htrusted, -⟩
    · exact .inr hquota
    · exact .inl ⟨hzero, htrusted⟩
  next sub hsub =>
    rw [hsub] at hsource
    cases hsource

theorem makes_trySubscription (hback : senv.subscription.fails .tokenRollback = false) :
    Makes (SessionCharged cal senv info quota) store (trySubscription cal senv info quota store) := by
  unfold trySubscription
  refine makes_attempt hback fun b hb => ?_
  have htoken : TokenGives info b.session.preConsumedQuota store b.store := by
    rw [hb.preConsumedQuota]
    exact hb.token
  refine ⟨htoken, ?_⟩
  have hsource : b.session.funding.source = .subscription := hb.source
  split
  next w hw =>
    rw [hw] at hsource
    cases hsource
  · refine ⟨?_, hb.funding⟩
    rcases hb.quota_cases with hquota | ⟨-, -, hwallet⟩
    · exact hquota
    · cases hwallet

theorem makes_byPreference (hwallet : senv.wallet.billing.fails .tokenRollback = false)
    (hsub : senv.subscription.fails .tokenRollback = false) :
    Makes (SessionCharged cal senv info quota) store (byPreference cal senv info quota store) := by
  unfold byPreference
  split
  · exact makes_trySubscription hsub
  · exact makes_tryWallet hwallet
  · exact (makes_tryWallet hwallet).fallback (makes_trySubscription hsub)
  split
  · exact makes_refused
  · exact makes_tryWallet hwallet
  · exact (makes_trySubscription hsub).fallback (makes_tryWallet hwallet)

theorem newSessionAtomic {relayInfo : Option RelayInfo}
    (hwallet : senv.wallet.billing.fails .tokenRollback = false)
    (hsub : senv.subscription.fails .tokenRollback = false) :
    NewSessionAtomic cal senv relayInfo quota store := by
  cases relayInfo with
  | none =>
    refine ⟨fun e store' h => ?_, fun session store' h => ?_⟩
    · cases h
      rfl
    · cases h
  | some info =>
    have hmakes : Makes (SessionCharged cal senv info quota) store
        (byPreference cal senv info quota store) := makes_byPreference hwallet hsub
    refine ⟨fun e store' h => ?_, fun session store' h => ?_⟩
    · unfold newBillingSession at h
      dsimp only at h
      split at h
      next hrefused =>
        cases h
        exact hmakes.refused _ _ hrefused
      · cases h
    · unfold newBillingSession at h
      dsimp only at h
      split at h
      · cases h
      next hmade =>
        cases h
        exact ⟨info, rfl, hmakes.made _ _ hmade⟩

end

/-- Where no update that gives something back fails, each of the three calls leaves the stores as they were or
has charged the funding source of its session, and no other. -/
theorem session_atomic (env : BillingEnv) (senv : Env) (b : State) (relayInfo : Option RelayInfo) (quota : Int)
    (henv : Compensates env) (hwallet : Compensates senv.wallet.billing)
    (hsub : Compensates senv.subscription) (hused : UsedNonneg b.store.subscriptions) :
    (b.session.tokenConsumed = 0 → PreConsumeAtomic cal env quota b) ∧ ReserveAtomic env quota b ∧
      NewSessionAtomic cal senv relayInfo quota b.store :=
  ⟨fun hfresh => preConsumeAtomic henv.token hfresh, reserveAtomic hused henv.funding,
    newSessionAtomic hwallet.token hsub.token⟩

/-- A request on the wallet of a user with a quota of 100. -/
def walletSession : State := start Wallet.walletInfo (.wallet { userId := 1 }) Wallet.sharedWallet

/-- The update of the funding source fails. -/
def fundingFails : BillingEnv := { fails := fun stmt => stmt = .funding }

theorem session_atomic_fundingFails :
    (walletSession.session.tokenConsumed = 0 → PreConsumeAtomic fixedCalendar fundingFails 60 walletSession) ∧
      ReserveAtomic fundingFails 60 walletSession ∧
        NewSessionAtomic fixedCalendar { wallet := { billing := fundingFails }, subscription := fundingFails }
          (some Wallet.walletInfo) 60 walletSession.store :=
  session_atomic fixedCalendar fundingFails
    { wallet := { billing := fundingFails }, subscription := fundingFails } walletSession
    (some Wallet.walletInfo) 60 ⟨rfl, rfl⟩ ⟨rfl, rfl⟩ ⟨rfl, rfl⟩ fun _ => Int.le_refl 0

/-- A user who is trusted from a quota of 50 on. -/
def trustedSession : State :=
  { walletSession with session :=
      { walletSession.session with relayInfo := { Wallet.walletInfo with userQuota := 100 } } }

/-- A session that has consumed 5 from its token. -/
def staleSession : State :=
  { walletSession with session := { walletSession.session with tokenConsumed := 5 } }

/-- A request that has pre-consumed from a subscription before. -/
def repeatedSession : State :=
  start Wallet.walletInfo (.subscription { requestId := "r", userId := 1, amount := 60 })
    { Wallet.sharedWallet with
      subscriptions :=
        { users := .empty
          subs := Table.empty.insertNew
            { id := 1, userId := 1, planId := 1, amountTotal := 100, amountUsed := 60, startTime := 0,
              endTime := 1000, status := .active, source := "order", lastResetTime := 0,
              nextResetTime := 0, upgradeGroup := "", prevUserGroup := "" }
          records := Table.empty.insertNew ⟨"r", 1, 1, 60, .consumed⟩ } }

/-- A call that succeeds charges no funding source where the user is trusted, where it is asked for nothing, and
where the request has pre-consumed before; and one that fails loses the counter of a session that has consumed
before. -/
theorem not_charged_and_not_kept :
    ((trustedSession.preConsume fixedCalendar { trustQuota := 50 } 60).1 = none ∧
      (trustedSession.preConsume fixedCalendar { trustQuota := 50 } 60).2.store = trustedSession.store) ∧
    ((walletSession.preConsume fixedCalendar {} 0).1 = none ∧
      (walletSession.preConsume fixedCalendar {} 0).2.store = walletSession.store) ∧
    ((repeatedSession.preConsume fixedCalendar {} 60).1 = none ∧
      (repeatedSession.preConsume fixedCalendar {} 60).2.store.subscriptions =
        repeatedSession.store.subscriptions) ∧
    ((walletSession.reserve {} 0).1 = none ∧ (walletSession.reserve {} 0).2.store = walletSession.store) ∧
    ((staleSession.preConsume fixedCalendar fundingFails 60).1 = some (.updateDataError .database) ∧
      (staleSession.preConsume fixedCalendar fundingFails 60).2.session.tokenConsumed = 0 ∧
      staleSession.session.tokenConsumed = 5) := by
  refine ⟨⟨by decide, rfl⟩, ⟨by decide, rfl⟩, ⟨by decide, rfl⟩, ⟨by decide, rfl⟩, by decide, by decide, rfl⟩

end NewApi.Billing.Atomic
