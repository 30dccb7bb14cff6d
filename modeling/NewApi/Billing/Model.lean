import NewApi.Subscription.PreConsume
import NewApi.Token.Model

/-!
# Billing sessions

A request is paid from a funding source, the wallet of its user or a subscription of theirs, and from
the quota of its token. Its billing session pre-consumes from both, may reserve more, and is settled or
refunded in the end; a refund is left to a job that runs later. Each update of a store may fail, and a
call that has made some by then goes on as the source does.
-/

namespace NewApi

namespace Billing

/-- Where the quota of a request comes from. -/
inductive BillingSource
  | wallet
  | subscription
deriving DecidableEq

/-- The part of a relayed request that billing reads and writes. -/
structure RelayInfo where
  userId : Nat
  tokenId : Nat
  tokenUnlimited : Bool := false
  isPlayground : Bool := false
  forcePreConsume : Bool := false
  userQuota : Int := 0
  finalPreConsumedQuota : Int := 0
  billingSource : Option BillingSource := none
  subscriptionId : Nat := 0
  subscriptionPreConsumed : Int := 0
  subscriptionPostDelta : Int := 0
  subscriptionAmountTotal : Int := 0
  subscriptionAmountUsedAfterPreConsume : Int := 0
deriving DecidableEq

/-- Payment from the wallet of a user. -/
structure WalletFunding where
  userId : Nat
  consumed : Int := 0
deriving DecidableEq

/-- Payment from a subscription. -/
structure SubscriptionFunding where
  requestId : String
  userId : Nat
  amount : Int
  subscriptionId : Nat := 0
  preConsumed : Int := 0
  amountTotal : Int := 0
  amountUsedAfter : Int := 0
  /-- What was used before the pre-consumption. The source drops it, and no call reads it. -/
  amountUsedBefore : Int := 0
deriving DecidableEq

/-- A funding source. -/
inductive FundingSource
  | wallet (w : WalletFunding)
  | subscription (sub : SubscriptionFunding)
deriving DecidableEq

/-- `Source`. -/
def FundingSource.source : FundingSource → BillingSource
  | .wallet _ => .wallet
  | .subscription _ => .subscription

/-- The users and their subscriptions, and the tokens. -/
structure Store where
  subscriptions : SubscriptionStore
  tokens : Table Token.id

/-- The updates of a call that may fail. -/
inductive BillingStmt
  | token
  | tokenRollback
  | funding
  | fundingRollback
  | refundDelta (attempt : Nat)
  | refundRecord (attempt : Nat)
  | refundReserved
deriving DecidableEq

/-- What surrounds a call: the clock, the updates that fail, the plans, the quota from which on a user is
trusted, the token quota that the request came with, and that of the token cache. -/
structure BillingEnv where
  now : Int := 0
  fails : BillingStmt → Bool := fun _ => false
  planById : Nat → Option SubscriptionPlan := fun _ => none
  trustQuota : Int := 0
  tokenQuota : Int := 0
  cachedRemainQuota : Option Int := none

/-- Why a call fails. -/
inductive BillingError
  | quotaNegative
  | tokenNotFound
  | notEnough (remain need : Int)
  | database
  | subscriptionIdMissing
  | subscription (e : SubscriptionError)
deriving DecidableEq

/-- The error of a call, with its code. -/
inductive ApiError
  | preConsumeTokenQuotaFailed (e : BillingError)
  | insufficientUserQuota (e : BillingError)
  | updateDataError (e : BillingError)
deriving DecidableEq

/-! ## Quotas -/

/-- An update by an amount that must not be negative. -/
def guarded (fails : Bool) (quota : Int) (updated : Store) : Except BillingError Store :=
  if quota < 0 then .error .quotaNegative
  else if fails then .error .database
  else .ok updated

namespace Store

/-- `UPDATE users SET quota = quota + delta`. -/
def addUserQuota (id : Nat) (delta : Int) (s : Store) : Store :=
  { s with subscriptions :=
      { s.subscriptions with users := s.subscriptions.users.addQuota id delta } }

/-- `UPDATE tokens SET remain_quota = remain_quota - quota, used_quota = used_quota + quota`. -/
def consumeToken (id : Nat) (quota : Int) (s : Store) : Store :=
  { s with tokens := s.tokens.modify id (Token.consume quota) (Token.consume_id quota) }

/-- `IncreaseUserQuota`. -/
def increaseUserQuota (fails : Bool) (id : Nat) (quota : Int) (s : Store) :
    Except BillingError Store := guarded fails quota (s.addUserQuota id quota)

/-- `DecreaseUserQuota`. -/
def decreaseUserQuota (fails : Bool) (id : Nat) (quota : Int) (s : Store) :
    Except BillingError Store := guarded fails quota (s.addUserQuota id (-quota))

/-- `IncreaseTokenQuota`. -/
def increaseTokenQuota (fails : Bool) (id : Nat) (quota : Int) (s : Store) :
    Except BillingError Store := guarded fails quota (s.consumeToken id (-quota))

/-- `DecreaseTokenQuota`. -/
def decreaseTokenQuota (fails : Bool) (id : Nat) (quota : Int) (s : Store) :
    Except BillingError Store := guarded fails quota (s.consumeToken id quota)

/-- `PostConsumeUserSubscriptionDelta`. -/
def postConsumeSubscription (fails : Bool) (id : Nat) (delta : Int) (s : Store) :
    Except BillingError Store :=
  match s.subscriptions.postConsumeUserSubscriptionDelta fails id delta with
  | .error e => .error (.subscription e)
  | .ok subscriptions => .ok { s with subscriptions }

end Store

/-- `PreConsumeTokenQuota`. The key and the id of a request are those of one token. -/
def preConsumeTokenQuota (env : BillingEnv) (info : RelayInfo) (quota : Int) (s : Store) :
    Except BillingError Store :=
  if quota < 0 then .error .quotaNegative
  else if info.isPlayground then .ok s
  else
    match env.cachedRemainQuota <|> (s.tokens.get? info.tokenId).map Token.remainQuota with
    | none => .error .tokenNotFound
    | some remain =>
      if info.tokenUnlimited = false ∧ remain < quota then .error (.notEnough remain quota)
      else s.decreaseTokenQuota (env.fails .token) info.tokenId quota

/-! ## Funding sources -/

namespace FundingSource

/-- `PreConsume`. A subscription pre-consumes the amount it was made for. -/
def preConsume (cal : Calendar) (env : BillingEnv) (amount : Int) (store : Store) :
    FundingSource → Except BillingError (FundingSource × Store)
  | .wallet w =>
    if amount ≤ 0 then .ok (.wallet w, store)
    else
      match store.decreaseUserQuota (env.fails .funding) w.userId amount with
      | .error e => .error e
      | .ok store => .ok (.wallet { w with consumed := amount }, store)
  | .subscription sub =>
    match store.subscriptions.preConsumeUserSubscription cal env.planById (env.fails .funding)
      sub.requestId sub.userId sub.amount env.now with
    | .error e => .error (.subscription e)
    | .ok (res, subscriptions) =>
      .ok (.subscription { sub with
          subscriptionId := res.userSubscriptionId
          preConsumed := res.preConsumed
          amountTotal := res.amountTotal
          amountUsedAfter := res.amountUsedAfter
          amountUsedBefore := res.amountUsedBefore }, { store with subscriptions })

/-- `Settle`. -/
def settle (env : BillingEnv) (delta : Int) (store : Store) :
    FundingSource → Except BillingError Store
  | .wallet w =>
    if delta = 0 then .ok store
    else if delta > 0 then store.decreaseUserQuota (env.fails .funding) w.userId delta
    else store.increaseUserQuota (env.fails .funding) w.userId (-delta)
  | .subscription sub =>
    if delta = 0 then .ok store
    else store.postConsumeSubscription (env.fails .funding) sub.subscriptionId delta

/-- `refundWithRetry` of `RefundSubscriptionPreConsume`: the attempts from some number on. -/
def refundWithRetry (env : BillingEnv) (requestId : String) :
    List Nat → SubscriptionStore → SubscriptionStore
  | [], s => s
  | attempt :: rest, s =>
    match s.refundSubscriptionPreConsume (env.fails (.refundDelta attempt))
      (env.fails (.refundRecord attempt)) requestId with
    | (none, s) => s
    | (some _, s) => refundWithRetry env requestId rest s

/-- `Refund`. Its error is only logged. -/
def refund (env : BillingEnv) (store : Store) : FundingSource → Store
  | .wallet w =>
    if w.consumed ≤ 0 then store
    else
      (store.increaseUserQuota (env.fails .funding) w.userId w.consumed).toOption.getD store
  | .subscription sub =>
    if sub.preConsumed ≤ 0 then store
    else
      { store with
        subscriptions := refundWithRetry env sub.requestId [0, 1, 2] store.subscriptions }

end FundingSource

/-! ## Sessions -/

/-- The billing of one request. -/
structure BillingSession where
  relayInfo : RelayInfo
  funding : FundingSource
  preConsumedQuota : Int := 0
  tokenConsumed : Int := 0
  extraReserved : Int := 0
  trusted : Bool := false
  fundingSettled : Bool := false
  settled : Bool := false
  refunded : Bool := false
deriving DecidableEq

namespace BillingSession

/-- `shouldTrust`. -/
def shouldTrust (env : BillingEnv) (s : BillingSession) : Bool :=
  if s.relayInfo.forcePreConsume then false
  else if env.trustQuota ≤ 0 then false
  else if ¬ (s.relayInfo.tokenUnlimited ∨ env.tokenQuota > env.trustQuota) then false
  else
    match s.funding with
    | .wallet _ => s.relayInfo.userQuota > env.trustQuota
    | .subscription _ => false

/-- `syncRelayInfo`. -/
def syncRelayInfo (s : BillingSession) : BillingSession :=
  { s with relayInfo :=
    match s.funding with
    | .subscription sub =>
      { s.relayInfo with
        finalPreConsumedQuota := s.preConsumedQuota
        billingSource := some s.funding.source
        subscriptionId := sub.subscriptionId
        subscriptionPreConsumed := sub.preConsumed + s.extraReserved
        subscriptionPostDelta := 0
        subscriptionAmountTotal := sub.amountTotal
        subscriptionAmountUsedAfterPreConsume := sub.amountUsedAfter + s.extraReserved }
    | .wallet _ =>
      { s.relayInfo with
        finalPreConsumedQuota := s.preConsumedQuota
        billingSource := some s.funding.source
        subscriptionId := 0
        subscriptionPreConsumed := 0 } }

/-- `needsRefundLocked`. -/
def needsRefund (s : BillingSession) : Bool :=
  if s.settled ∨ s.refunded ∨ s.fundingSettled then false
  else if s.tokenConsumed > 0 then true
  else
    match s.funding with
    | .wallet _ => false
    | .subscription sub => sub.preConsumed > 0

end BillingSession

/-- What the closure of `Refund` has copied from the session. -/
structure RefundJob where
  tokenConsumed : Int
  extraReserved : Int
  subscriptionId : Nat
deriving DecidableEq

/-- A session, the stores, the refunds that have not run yet, and the quota of the call of `Settle` that
has settled the session. -/
structure State where
  session : BillingSession
  store : Store
  jobs : List RefundJob := []
  settledWith : Option Int := none

namespace State

/-- The token is pre-consumed, where there is something to. -/
def preConsumeToken (env : BillingEnv) (quota : Int) (s : BillingSession) (store : Store) :
    Except BillingError (BillingSession × Store) :=
  if quota > 0 then
    match preConsumeTokenQuota env s.relayInfo quota store with
    | .error e => .error e
    | .ok store => .ok ({ s with tokenConsumed := quota }, store)
  else .ok (s, store)

/-- What was consumed of the token is given back, where the funding source fails. -/
def rollbackToken (env : BillingEnv) (s : BillingSession) (store : Store) : BillingSession × Store :=
  if s.tokenConsumed > 0 ∧ s.relayInfo.isPlayground = false then
    ({ s with tokenConsumed := 0 },
      (store.increaseTokenQuota (env.fails .tokenRollback) s.relayInfo.tokenId
        s.tokenConsumed).toOption.getD store)
  else (s, store)

/-- The code of the error with which the funding source fails. -/
def preConsumeError : BillingError → ApiError
  | .subscription .noActive => .insufficientUserQuota (.subscription .noActive)
  | .subscription (.insufficient need) => .insufficientUserQuota (.subscription (.insufficient need))
  | e => .updateDataError e

/-- `preConsume` below the check for trust. -/
def preConsumeEffective (cal : Calendar) (env : BillingEnv) (effectiveQuota : Int)
    (s : BillingSession) (store : Store) : Option ApiError × BillingSession × Store :=
  match preConsumeToken env effectiveQuota s store with
  | .error e => (some (.preConsumeTokenQuotaFailed e), s, store)
  | .ok (s, store) =>
    match s.funding.preConsume cal env effectiveQuota store with
    | .error e => (some (preConsumeError e), rollbackToken env s store)
    | .ok (funding, store) =>
      (none, { s with funding, preConsumedQuota := effectiveQuota }.syncRelayInfo, store)

/-- `preConsume`. -/
def preConsume (cal : Calendar) (env : BillingEnv) (quota : Int) (b : State) :
    Option ApiError × State :=
  let trusts := b.session.shouldTrust env
  let s := if trusts then { b.session with trusted := true } else b.session
  let effectiveQuota := if trusts then 0 else quota
  let (e, s, store) := preConsumeEffective cal env effectiveQuota s b.store
  (e, { b with session := s, store := store })

/-- `reserveFunding`. -/
def reserveFunding (env : BillingEnv) (delta : Int) (store : Store) :
    FundingSource → Except ApiError (FundingSource × Store)
  | .wallet w =>
    match store.decreaseUserQuota (env.fails .funding) w.userId delta with
    | .error e => .error (.updateDataError e)
    | .ok store => .ok (.wallet { w with consumed := w.consumed + delta }, store)
  | .subscription sub =>
    match store.postConsumeSubscription (env.fails .funding) sub.subscriptionId delta with
    | .error e => .error (.insufficientUserQuota e)
    | .ok store => .ok (.subscription sub, store)

/-- `rollbackFundingReserve`. -/
def rollbackFundingReserve (env : BillingEnv) (delta : Int) (store : Store) :
    FundingSource → FundingSource × Store
  | .wallet w =>
    match store.increaseUserQuota (env.fails .fundingRollback) w.userId delta with
    | .error _ => (.wallet w, store)
    | .ok store => (.wallet { w with consumed := w.consumed - delta }, store)
  | .subscription sub =>
    (.subscription sub, (store.postConsumeSubscription (env.fails .fundingRollback)
      sub.subscriptionId (-delta)).toOption.getD store)

/-- `reserveToken`. -/
def reserveToken (env : BillingEnv) (delta : Int) (info : RelayInfo) (store : Store) :
    Except ApiError Store :=
  if delta ≤ 0 ∨ info.isPlayground then .ok store
  else
    match preConsumeTokenQuota env info delta store with
    | .error e => .error (.preConsumeTokenQuotaFailed e)
    | .ok store => .ok store

/-- `Reserve`. -/
def reserve (env : BillingEnv) (targetQuota : Int) (b : State) : Option ApiError × State :=
  let s := b.session
  if s.settled ∨ s.refunded ∨ s.trusted ∨ targetQuota ≤ s.preConsumedQuota then (none, b)
  else
    let delta := targetQuota - s.preConsumedQuota
    match reserveFunding env delta b.store s.funding with
    | .error e => (some e, b)
    | .ok (funding, store) =>
      match reserveToken env delta s.relayInfo store with
      | .error e =>
        let (funding, store) := rollbackFundingReserve env delta store funding
        (some e, { b with session := { s with funding }, store := store })
      | .ok store =>
        (none, { b with
          session := { s with
            funding
            preConsumedQuota := s.preConsumedQuota + delta
            tokenConsumed := s.tokenConsumed + delta
            extraReserved := s.extraReserved + delta }.syncRelayInfo
          store := store })

/-- The funding source is settled, unless it has been. -/
def settleFunding (env : BillingEnv) (delta : Int) (s : BillingSession) (store : Store) :
    Except BillingError Store :=
  if s.fundingSettled then .ok store else s.funding.settle env delta store

/-- The token is settled. -/
def settleToken (env : BillingEnv) (delta : Int) (info : RelayInfo) (store : Store) :
    Except BillingError Store :=
  if info.isPlayground then .ok store
  else if delta > 0 then store.decreaseTokenQuota (env.fails .token) info.tokenId delta
  else store.increaseTokenQuota (env.fails .token) info.tokenId (-delta)

/-- The delta is noted where a subscription pays. -/
def notePostDelta (delta : Int) (s : BillingSession) : BillingSession :=
  match s.funding with
  | .wallet _ => s
  | .subscription _ =>
    { s with relayInfo :=
      { s.relayInfo with subscriptionPostDelta := s.relayInfo.subscriptionPostDelta + delta } }

/-- `Settle`. -/
def settle (env : BillingEnv) (actualQuota : Int) (b : State) : Option BillingError × State :=
  let s := b.session
  if s.settled then (none, b)
  else
    let delta := actualQuota - s.preConsumedQuota
    if delta = 0 then (none, { b with session := { s with settled := true } })
    else
      match settleFunding env delta s b.store with
      | .error e => (some e, b)
      | .ok store =>
        let s := notePostDelta delta { s with fundingSettled := true, settled := true }
        match settleToken env delta s.relayInfo store with
        | .error e => (some e, { b with session := s, store := store })
        | .ok store => (none, { b with session := s, store := store })

/-- `Refund`, which leaves the work to a job. -/
def refund (b : State) : State :=
  let s := b.session
  if s.settled ∨ s.refunded ∨ ¬ s.needsRefund then b
  else
    { b with
      session := { s with refunded := true }
      jobs := b.jobs ++ [⟨s.tokenConsumed, s.extraReserved, s.relayInfo.subscriptionId⟩] }

/-- The part of a refund that is reserved quota of a subscription. -/
def refundReserved (env : BillingEnv) (job : RefundJob) (funding : FundingSource) (store : Store) :
    Store :=
  if job.extraReserved > 0 ∧ funding.source = .subscription ∧ job.subscriptionId > 0 then
    (store.postConsumeSubscription (env.fails .refundReserved) job.subscriptionId
      (-job.extraReserved)).toOption.getD store
  else store

/-- The part of a refund that is quota of the token. -/
def refundToken (env : BillingEnv) (job : RefundJob) (info : RelayInfo) (store : Store) : Store :=
  if job.tokenConsumed > 0 ∧ info.isPlayground = false then
    (store.increaseTokenQuota (env.fails .token) info.tokenId job.tokenConsumed).toOption.getD store
  else store

/-- The job that `Refund` has started. -/
def runRefund (env : BillingEnv) (b : State) : State :=
  match b.jobs with
  | [] => b
  | job :: jobs =>
    let store := b.session.funding.refund env b.store
    let store := refundReserved env job b.session.funding store
    { b with store := refundToken env job b.session.relayInfo store, jobs := jobs }

end State

end Billing

end NewApi
