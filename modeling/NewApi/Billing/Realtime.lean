import NewApi.Billing.Conservation

/-!
# Realtime sessions

A realtime session goes through client events and upstream events until one of them ends it. Tokens are
counted as they pass, and each response is charged when it is done, with the usage that the upstream
reports or else with the count. What is left over is charged at the end, and the session is settled with
the price of all of its usage. Token counts are given with the events, and so is what the caches say.
-/

namespace NewApi

namespace Billing

/-- `RealtimeUsage`, with the details that are summed. -/
structure RealtimeUsage where
  totalTokens : Int := 0
  inputTokens : Int := 0
  outputTokens : Int := 0
  inputCachedTokens : Int := 0
  inputTextTokens : Int := 0
  inputAudioTokens : Int := 0
  outputTextTokens : Int := 0
  outputAudioTokens : Int := 0
deriving DecidableEq

namespace RealtimeUsage

instance : Zero RealtimeUsage := ⟨{}⟩

instance : Add RealtimeUsage where
  add a b :=
    { totalTokens := a.totalTokens + b.totalTokens
      inputTokens := a.inputTokens + b.inputTokens
      outputTokens := a.outputTokens + b.outputTokens
      inputCachedTokens := a.inputCachedTokens + b.inputCachedTokens
      inputTextTokens := a.inputTextTokens + b.inputTextTokens
      inputAudioTokens := a.inputAudioTokens + b.inputAudioTokens
      outputTextTokens := a.outputTextTokens + b.outputTextTokens
      outputAudioTokens := a.outputAudioTokens + b.outputAudioTokens }

/-- Tokens counted of what is sent upstream. -/
def counted (textToken audioToken : Int) : RealtimeUsage :=
  { totalTokens := textToken + audioToken
    inputTokens := textToken + audioToken
    inputTextTokens := textToken
    inputAudioTokens := audioToken }

/-- Tokens counted of what comes from upstream. -/
def countedOutput (textToken audioToken : Int) : RealtimeUsage :=
  { totalTokens := textToken + audioToken
    outputTokens := textToken + audioToken
    outputTextTokens := textToken
    outputAudioTokens := audioToken }

end RealtimeUsage

/-! ## Prices -/

/-- The ratio settings. -/
structure RatioSetting where
  completionRatio : String → ℚ
  audioRatio : String → ℚ
  audioCompletionRatio : String → ℚ
  modelRatio : String → ℚ
  groupRatio : String → ℚ
  groupGroupRatio : String → String → Option ℚ
  quotaPerUnit : ℚ

/-- `PriceData`. -/
structure PriceData where
  modelPrice : ℚ
  modelRatio : ℚ
  groupRatio : ℚ
  usePrice : Bool
  completionRatio : ℚ := 0
  cacheRatio : ℚ := 0
  cacheCreationRatio : ℚ := 0
  cacheCreation5mRatio : ℚ := 0
  cacheCreation1hRatio : ℚ := 0
  imageRatio : ℚ := 0
  otherRatios : List ℚ := []
  freeModel : Bool := false
  quotaToPreConsume : Int := 0
deriving DecidableEq

/-- What a request is priced by. -/
structure RealtimeInfo where
  originModelName : String
  upstreamModelName : String
  userGroup : String
  usingGroup : String
  autoGroup : Option String
  usePrice : Bool
  priceData : PriceData

/-- `QuotaInfo`, less its token details. -/
structure QuotaInfo where
  modelName : String
  usePrice : Bool
  modelPrice : ℚ
  modelRatio : ℚ
  groupRatio : ℚ

/-- `calculateAudioQuota`. -/
def calculateAudioQuota (setting : RatioSetting) (info : QuotaInfo) (usage : RealtimeUsage) : Int :=
  if info.usePrice then Decimal.intPart (info.modelPrice * setting.quotaPerUnit * info.groupRatio)
  else
    let ratio := info.groupRatio * info.modelRatio
    let quota := (usage.inputTextTokens + usage.outputTextTokens * setting.completionRatio info.modelName +
      usage.inputAudioTokens * setting.audioRatio info.modelName +
      usage.outputAudioTokens * setting.audioRatio info.modelName *
        setting.audioCompletionRatio info.modelName) * ratio
    Decimal.intPart (Decimal.round (if ratio ≠ 0 ∧ quota ≤ 0 then 1 else quota))

/-- The group that a request of an automatic group has been given. -/
def RealtimeInfo.group (info : RealtimeInfo) : String := info.autoGroup.getD info.usingGroup

/-- The prices of `PreWssConsumeQuota`. -/
def RealtimeInfo.turnInfo (setting : RatioSetting) (info : RealtimeInfo) : QuotaInfo where
  modelName := info.originModelName
  usePrice := info.usePrice
  modelPrice := 0
  modelRatio := setting.modelRatio info.originModelName
  groupRatio := (setting.groupGroupRatio info.userGroup info.group).getD (setting.groupRatio info.group)

/-- The prices of `PostWssConsumeQuota`, which leaves the model price at zero. -/
def RealtimeInfo.sessionInfo (info : RealtimeInfo) : QuotaInfo where
  modelName := info.upstreamModelName
  usePrice := info.priceData.usePrice
  modelPrice := 0
  modelRatio := info.priceData.modelRatio
  groupRatio := info.priceData.groupRatio

/-- The price of a turn. -/
def turnQuota (setting : RatioSetting) (info : RealtimeInfo) (usage : RealtimeUsage) : Int :=
  calculateAudioQuota setting (info.turnInfo setting) usage

/-- The quota that `PostWssConsumeQuota` settles and logs. -/
def sessionQuota (setting : RatioSetting) (info : RealtimeInfo) (usage : RealtimeUsage) : Int :=
  if usage.totalTokens = 0 then 0 else calculateAudioQuota setting info.sessionInfo usage

/-! ## Charging a turn -/

/-- What the caches say of the user and the token at some time, and whether a row cannot be read. -/
structure Balances where
  cachedUserQuota : Option Int := none
  cachedToken : Option (Bool × Int) := none
  readFails : Bool := false

/-- `PostConsumeQuota` from a wallet, none of whose updates fails. -/
def postConsumeQuota (info : RelayInfo) (quota : Int) (store : Store) : Store :=
  let charged := store.addUserQuota info.userId (-quota)
  if info.isPlayground then charged else charged.consumeToken info.tokenId quota

/-- The balance check of `PreWssConsumeQuota`. -/
def canPay (balances : Balances) (info : RelayInfo) (quota : Int) (store : Store) : Bool :=
  if balances.readFails then false
  else
    match balances.cachedToken <|>
      (store.tokens.get? info.tokenId).map fun t => (t.unlimitedQuota, t.remainQuota) with
    | none => false
    | some (unlimited, remain) =>
      ¬ balances.cachedUserQuota.getD ((store.walletOf info.userId).getD 0) < quota ∧
        (unlimited ∨ ¬ remain < quota)

/-- The state of a session, with the usage of the turns that have been charged. -/
structure RealtimeState where
  billing : State
  usage : RealtimeUsage := 0
  localUsage : RealtimeUsage := 0
  sumUsage : RealtimeUsage := 0
  charged : List RealtimeUsage := []

section
variable (setting : RatioSetting) (info : RealtimeInfo)

/-- `PreWssConsumeQuota`: whether it succeeds, and the state it leaves. -/
def preWssConsumeQuota (balances : Balances) (usage : RealtimeUsage) (st : RealtimeState) :
    Bool × RealtimeState :=
  let relayInfo := st.billing.session.relayInfo
  let quota := turnQuota setting info usage
  if info.usePrice then (true, st)
  else if canPay balances relayInfo quota st.billing.store then
    (true, { st with
      billing := { st.billing with store := postConsumeQuota relayInfo quota st.billing.store }
      charged := st.charged ++ [usage] })
  else (false, st)

/-- `preConsumeUsage`. -/
def preConsumeUsage (balances : Balances) (usage : RealtimeUsage) (st : RealtimeState) :
    Bool × RealtimeState :=
  preWssConsumeQuota setting info balances usage { st with sumUsage := st.sumUsage + usage }

/-! ## Events -/

/-- An event with the tokens counted of it. -/
inductive RealtimeEvent
  | client (textToken audioToken : Int)
  | responseDone (usage : RealtimeUsage)
  | responseDoneUncounted (textToken audioToken : Int)
  | session
  | upstream (textToken audioToken : Int)

/-- An event, what the caches say when it is handled, and whether it is passed on. Where that fails, or
where the connection ends, no event follows. -/
structure Received where
  event : RealtimeEvent
  balances : Balances := {}
  passedOn : Bool := true

/-- An event is handled: whether the session goes on, and its state. -/
def handleEvent (balances : Balances) (st : RealtimeState) : RealtimeEvent → Bool × RealtimeState
  | .client textToken audioToken =>
    (true, { st with localUsage := st.localUsage + .counted textToken audioToken })
  | .responseDone usage =>
    let st := { st with usage := st.usage + usage }
    match preConsumeUsage setting info balances st.usage st with
    | (false, st) => (false, st)
    | (true, st) => (true, { st with usage := 0, localUsage := 0 })
  | .responseDoneUncounted textToken audioToken =>
    let st := { st with localUsage := st.localUsage + .counted textToken audioToken }
    match preConsumeUsage setting info balances st.localUsage st with
    | (false, st) => (false, st)
    | (true, st) => (true, { st with localUsage := 0 })
  | .session => (true, st)
  | .upstream textToken audioToken =>
    (true, { st with localUsage := st.localUsage + .countedOutput textToken audioToken })

/-- The events up to the end of the session: whether each turn could be charged, the state, and the
events that have been handled. -/
def handleEvents : List Received → RealtimeState → Bool × RealtimeState × List RealtimeEvent
  | [], st => (true, st, [])
  | received :: rest, st =>
    match handleEvent setting info received.balances st received.event with
    | (false, st) => (false, st, [received.event])
    | (true, st) =>
      if received.passedOn then
        let (paid, st, handled) := handleEvents rest st
        (paid, st, received.event :: handled)
      else (true, st, [received.event])

/-- What is left over is charged. -/
def flush (balances : Balances) (usage : RealtimeUsage) (st : RealtimeState) : RealtimeState :=
  if usage.totalTokens ≠ 0 then (preConsumeUsage setting info balances usage st).2 else st

/-- The end of `OpenaiRealtimeHandler`. -/
def flushAll (balances : Balances × Balances) (st : RealtimeState) : RealtimeState :=
  let st := flush setting info balances.1 st.usage st
  flush setting info balances.2 st.localUsage st

/-- `OpenaiRealtimeHandler` and `PostWssConsumeQuota`, none of whose updates fails. -/
def realtime (env : BillingEnv) (balances : Balances × Balances) (received : List Received) (b : State) :
    RealtimeState :=
  let st := flushAll setting info balances (handleEvents setting info received { billing := b }).2.1
  { st with billing := (st.billing.settle env (sessionQuota setting info st.sumUsage)).2 }

end

end Billing

end NewApi
