import NewApi.TopUp.Model

/-!
# Creating top-up orders

The request handlers of the five payment providers. Each checks the request against the settings,
prices it, and inserts a pending order. What `amount` and `money` of that order count depends on the
provider: currency units or, where quota is displayed in tokens, tokens converted to currency units
(Epay and both Waffos), units of a product priced elsewhere (Stripe), or quota itself (Creem).
-/

namespace NewApi.TopUp

/-- A product of the Creem configuration. -/
structure CreemProduct where
  productId : String
  price : ℚ
  quota : Int

/-- The settings the handlers read. -/
structure Setting where
  quotaPerUnit : ℚ
  /-- Whether quota is displayed in tokens. -/
  displayTokens : Bool
  minTopUp : Int
  stripeMinTopUp : Int
  waffoMinTopUp : Int
  waffoPancakeMinTopUp : Int
  topupGroupRatio : List (String × ℚ)
  usdExchangeRate : ℚ
  price : ℚ
  amountDiscount : List (Int × ℚ)
  payMethods : List String
  waffoEnabled : Bool
  waffoPancakeEnabled : Bool
  /-- Whether every credential of Waffo Pancake is filled in. -/
  waffoPancakeConfigured : Bool
  waffoUnitPrice : ℚ
  waffoPancakeUnitPrice : ℚ
  waffoPayMethods : List (String × String)
  creemProducts : List CreemProduct
  /-- Whether a redirect address is on a trusted domain. -/
  trustedRedirect : String → Bool

/-- What a handler leaves behind: the order it inserted, as it leaves it, and the error it answers
with, if it does. -/
structure Reply where
  order : Option TopUp := none
  error : Option String := none

/-- A refusal before any order is inserted. -/
def Reply.refuse (msg : String) : Reply := { error := some msg }

namespace Setting

/-- `GetTopupGroupRatio`, with the caller's replacement of zero. -/
def groupRatio (cfg : Setting) (group : String) : ℚ :=
  let ratio := (cfg.topupGroupRatio.lookup group).getD 1
  if ratio = 0 then 1 else ratio

/-- The preset discount of an amount. -/
def discount (cfg : Setting) (amount : Int) : ℚ :=
  match cfg.amountDiscount.lookup amount with
  | some ds => if ds > 0 then ds else 1
  | none => 1

/-- `getPayMoney`. -/
def getPayMoney (cfg : Setting) (h : Host) (amount : Int) (group : String) : ℚ :=
  let dAmount := if cfg.displayTokens then Decimal.divRound amount cfg.quotaPerUnit else amount
  let topupRate := if cfg.usdExchangeRate ≤ 0 then cfg.price else cfg.usdExchangeRate
  h.ofDecimal (dAmount * topupRate * cfg.groupRatio group * cfg.discount amount)

/-- `getMinTopup`. -/
def getMinTopup (cfg : Setting) : Int :=
  if cfg.displayTokens then Decimal.intPart (cfg.minTopUp * cfg.quotaPerUnit) else cfg.minTopUp

/-- `getStripeMinTopup`. -/
def getStripeMinTopup (cfg : Setting) (h : Host) : Int :=
  if cfg.displayTokens then wrap64 (cfg.stripeMinTopUp * h.toInt64 cfg.quotaPerUnit)
  else cfg.stripeMinTopUp

/-- `GetChargedAmount`. -/
def getChargedAmount (cfg : Setting) (h : Host) (count : ℚ) (user : User) : ℚ :=
  h.fmul count (cfg.groupRatio user.group)

/-- `getWaffoPayMoney`. -/
def getWaffoPayMoney (cfg : Setting) (h : Host) (originalAmount : ℚ) (group : String) : ℚ :=
  let amount := if cfg.displayTokens then h.fdiv originalAmount cfg.quotaPerUnit else originalAmount
  h.fmul (h.fmul (h.fmul amount cfg.waffoUnitPrice) (cfg.groupRatio group))
    (cfg.discount (h.toInt64 originalAmount))

/-- `getWaffoPancakePayMoney`. -/
def getWaffoPancakePayMoney (cfg : Setting) (h : Host) (amount : Int) (group : String) : ℚ :=
  let dAmount := if cfg.displayTokens then Decimal.divRound amount cfg.quotaPerUnit else amount
  h.ofDecimal (dAmount * cfg.waffoPancakeUnitPrice * cfg.groupRatio group * cfg.discount amount)

/-- `normalizeWaffoPancakeTopUpAmount`. -/
def normalizeWaffoPancakeTopUpAmount (cfg : Setting) (amount : Int) : Int :=
  if cfg.displayTokens then
    max 1 (Decimal.intPart (Decimal.divRound amount cfg.quotaPerUnit))
  else amount

end Setting

/-- The pending order a handler inserts. -/
def pending (user : User) (tradeNo paymentMethod : String) (provider : PaymentProvider)
    (now amount : Int) (money : ℚ) : TopUp where
  tradeNo := tradeNo
  userId := user.id
  amount := amount
  money := money
  paymentMethod := paymentMethod
  paymentProvider := provider
  createTime := now
  status := .pending

/-- A request to a handler, with the text its trade number ends in, the clock, and the error of the
payment gateway, if it refuses. -/
structure PayContext where
  user : User
  unique : String
  now : Int := 0
  gateway : Option String := none

section
variable (cfg : Setting) (h : Host) (ctx : PayContext)

/-- `RequestEpay`. -/
def requestEpay (amount : Int) (paymentMethod : String) : Reply :=
  if amount < cfg.getMinTopup then .refuse ("充值数量不能小于 " ++ toString cfg.getMinTopup)
  else
    let payMoney := cfg.getPayMoney h amount ctx.user.group
    if payMoney < 1 / 100 then .refuse "充值金额过低"
    else if paymentMethod ∉ cfg.payMethods then .refuse "支付方式不存在"
    else
      match ctx.gateway with
      | some _ => .refuse "拉起支付失败"
      | none =>
        let stored :=
          if cfg.displayTokens then Decimal.intPart (Decimal.divRound amount cfg.quotaPerUnit)
          else amount
        let tradeNo := "USR" ++ toString ctx.user.id ++ "NO" ++ ctx.unique
        { order := some (pending ctx.user tradeNo paymentMethod .epay ctx.now stored payMoney) }

/-- `StripeAdaptor.RequestPay`. -/
def requestStripe (amount : Int) (paymentMethod successURL cancelURL : String) : Reply :=
  if paymentMethod ≠ "stripe" then .refuse "不支持的支付渠道"
  else if amount < cfg.getStripeMinTopup h then
    .refuse ("充值数量不能小于 " ++ toString (cfg.getStripeMinTopup h))
  else if amount > 10000 then .refuse "充值数量不能大于 10000"
  else if successURL ≠ "" ∧ !cfg.trustedRedirect successURL then
    .refuse "支付成功重定向URL不在可信任域名列表中"
  else if cancelURL ≠ "" ∧ !cfg.trustedRedirect cancelURL then
    .refuse "支付取消重定向URL不在可信任域名列表中"
  else
    match ctx.gateway with
    | some _ => .refuse "拉起支付失败"
    | none =>
      let chargedMoney := cfg.getChargedAmount h (h.ofDecimal amount) ctx.user
      { order := some
          (pending ctx.user ("ref_" ++ ctx.unique) "stripe" .stripe ctx.now amount chargedMoney) }

/-- `CreemAdaptor.RequestPay`. The order stays when the gateway refuses. -/
def requestCreem (productId paymentMethod : String) : Reply :=
  if paymentMethod ≠ "creem" then .refuse "不支持的支付渠道"
  else if productId = "" then .refuse "请选择产品"
  else
    match cfg.creemProducts.find? fun p => p.productId = productId with
    | none => .refuse "产品不存在"
    | some p =>
      { order := some (pending ctx.user ("ref_" ++ ctx.unique) "creem" .creem ctx.now p.quota p.price)
        error := ctx.gateway.map fun _ => "拉起支付失败" }

/-- The Waffo payment method a request selects: by index, by the names older clients send, or none.
The source checks it and hands it to the gateway. -/
def waffoPayMethodKnown (payMethodIndex : Option Int) (payMethodType payMethodName : String) : Bool :=
  match payMethodIndex with
  | some idx => 0 ≤ idx ∧ idx < cfg.waffoPayMethods.length
  | none => payMethodType = "" ∨ (payMethodType, payMethodName) ∈ cfg.waffoPayMethods

/-- An order whose gateway refused after it was inserted is marked failed. -/
def failedIfRefused (o : TopUp) : Reply :=
  match ctx.gateway with
  | none => { order := some o }
  | some _ => { order := some (withStatus .failed o), error := some "拉起支付失败" }

/-- `RequestWaffoPay`. -/
def requestWaffo (amount : Int) (payMethodIndex : Option Int)
    (payMethodType payMethodName : String) : Reply :=
  if !cfg.waffoEnabled then .refuse "Waffo 支付未启用"
  else if amount < cfg.waffoMinTopUp then
    .refuse ("充值数量不能小于 " ++ toString cfg.waffoMinTopUp)
  else if !waffoPayMethodKnown cfg payMethodIndex payMethodType payMethodName then
    .refuse "不支持的支付方式"
  else
    let payMoney := cfg.getWaffoPayMoney h (h.ofDecimal amount) ctx.user.group
    if payMoney < 1 / 100 then .refuse "充值金额过低"
    else
      let stored :=
        if cfg.displayTokens then max 1 (h.toInt64 (h.fdiv (h.ofDecimal amount) cfg.quotaPerUnit))
        else amount
      let tradeNo := "WAFFO-" ++ toString ctx.user.id ++ "-" ++ ctx.unique
      failedIfRefused ctx (pending ctx.user tradeNo "waffo" .waffo ctx.now stored payMoney)

/-- `RequestWaffoPancakePay`. -/
def requestWaffoPancake (amount : Int) : Reply :=
  if !cfg.waffoPancakeEnabled then .refuse "Waffo Pancake 支付未启用"
  else if !cfg.waffoPancakeConfigured then .refuse "Waffo Pancake 配置不完整"
  else if amount < cfg.waffoPancakeMinTopUp then
    .refuse ("充值数量不能小于 " ++ toString cfg.waffoPancakeMinTopUp)
  else
    let payMoney := cfg.getWaffoPancakePayMoney h amount ctx.user.group
    if payMoney < 1 / 100 then .refuse "充值金额过低"
    else
      let tradeNo := "WAFFO_PANCAKE-" ++ toString ctx.user.id ++ "-" ++ ctx.unique
      failedIfRefused ctx (pending ctx.user tradeNo "waffo_pancake" .waffoPancake ctx.now
        (cfg.normalizeWaffoPancakeTopUpAmount amount) payMoney)

/-- A payment request to one of the five handlers. -/
inductive PayRequest
  | epay (amount : Int) (paymentMethod : String)
  | stripe (amount : Int) (paymentMethod successURL cancelURL : String)
  | creem (productId paymentMethod : String)
  | waffo (amount : Int) (payMethodIndex : Option Int) (payMethodType payMethodName : String)
  | waffoPancake (amount : Int)

/-- The handlers as one function. -/
def requestPay : PayRequest → Reply
  | .epay amount method => requestEpay cfg h ctx amount method
  | .stripe amount method ok cancel => requestStripe cfg h ctx amount method ok cancel
  | .creem product method => requestCreem cfg ctx product method
  | .waffo amount idx ty name => requestWaffo cfg h ctx amount idx ty name
  | .waffoPancake amount => requestWaffoPancake cfg h ctx amount

/-- The provider a request goes to. -/
def PayRequest.provider : PayRequest → PaymentProvider
  | .epay .. => .epay
  | .stripe .. => .stripe
  | .creem .. => .creem
  | .waffo .. => .waffo
  | .waffoPancake _ => .waffoPancake

end

end NewApi.TopUp
