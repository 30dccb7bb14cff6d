import NewApi.Lib.Arith
import NewApi.Model.User

/-!
# Top-up orders

A top-up order is created `pending` by the request handler of a payment provider and completed by
one of the functions of `model/topup.go`: the provider's own notification (`recharge`,
`rechargeCreem`, `rechargeWaffo`, `rechargeWaffoPancake`), an administrator
(`manualCompleteTopUp`), or a status update that credits nothing (`updatePendingTopUpStatus`).
Each runs in one database transaction that locks the order's row, so a call is one step: it either
commits or leaves the store as it was. Statements may fail (`Io`), and the parts of the database and
of `float64` that the source leaves to them are the fields of `Host`.
-/

namespace NewApi

/-- The status of an order. -/
inductive TopUpStatus
  | pending | success | failed | expired
deriving DecidableEq, Repr

/-- The provider column; `unset` is the column's default, which orders older than it carry. -/
inductive PaymentProvider
  | unset | epay | stripe | creem | waffo | waffoPancake
deriving DecidableEq, Repr

/-- An order. What `amount` and `money` count differs by provider. -/
structure TopUp where
  tradeNo : String
  userId : Nat
  amount : Int
  money : ℚ
  paymentMethod : String
  paymentProvider : PaymentProvider
  createTime : Int := 0
  completeTime : Int := 0
  status : TopUpStatus
  topupId : Nat := 0
deriving DecidableEq

namespace TopUp

/-- The two tables a completion touches. `trade_no` is a unique column. -/
structure Store where
  topUps : Table TopUp.tradeNo
  users : Users
deriving DecidableEq

/-- What the model takes from outside the source: the `float64` operations the code uses (product,
quotient, the nearest `float64` to a decimal, the conversion to a 64-bit integer), and the value an
integer column holds after `quota + x` for a `float64` `x` (`none` when the database rejects the
statement). -/
structure Host where
  fmul : ℚ → ℚ → ℚ
  fdiv : ℚ → ℚ → ℚ
  ofDecimal : ℚ → ℚ
  toInt64 : ℚ → Int
  addFloat : Int → ℚ → Option Int

/-- A host whose arithmetic is exact and whose integer columns round. -/
def Host.exact : Host where
  fmul := (· * ·)
  fdiv := (· / ·)
  ofDecimal := id
  toInt64 := Decimal.intPart
  addFloat q x := some (q + Decimal.round x)

/-- The statements of a completion that may fail, each with the error it fails with. -/
structure Io where
  save : Option String := none
  update : Option String := none

/-- The columns of the user row that a completion writes. -/
structure UserUpdates where
  quota : Int → Option Int
  stripeCustomer : Option String := none
  email : Option String := none

/-- The user row after the update, with the quota the database computed. -/
def UserUpdates.apply (upd : UserUpdates) (quota : Int) (u : User) : User :=
  { u with
    quota := quota
    stripeCustomer := upd.stripeCustomer.getD u.stripeCustomer
    email := upd.email.getD u.email }

@[simp] theorem UserUpdates.apply_id (upd : UserUpdates) (quota : Int) (u : User) :
    (upd.apply quota u).id = u.id := rfl

@[simp] theorem UserUpdates.apply_quota (upd : UserUpdates) (quota : Int) (u : User) :
    (upd.apply quota u).quota = quota := rfl

/-- The order row that `tx.Save` writes on completion. -/
def completed (now : Int) (o : TopUp) : TopUp := { o with completeTime := now, status := .success }

@[simp] theorem completed_tradeNo (now : Int) (o : TopUp) :
    (completed now o).tradeNo = o.tradeNo := rfl

/-- The order row that `tx.Save` writes on a mere change of status. -/
def withStatus (target : TopUpStatus) (o : TopUp) : TopUp := { o with status := target }

@[simp] theorem withStatus_tradeNo (target : TopUpStatus) (o : TopUp) :
    (withStatus target o).tradeNo = o.tradeNo := rfl

/-- The end of every completing transaction: mark the order, then update its user. An update that
matches no row is no error. -/
def Store.complete (s : Store) (io : Io) (now : Int) (topUp : TopUp) (upd : UserUpdates) :
    Except String Store :=
  match io.save, io.update with
  | some e, _ => .error e
  | none, some e => .error e
  | none, none =>
    let saved := s.topUps.modify topUp.tradeNo (completed now) (completed_tradeNo now)
    match s.users.get? topUp.userId with
    | none => .ok { s with topUps := saved }
    | some u =>
      match upd.quota u.quota with
      | none => .error "quota + ?"
      | some q =>
        .ok { topUps := saved, users := s.users.modify topUp.userId (upd.apply q) (upd.apply_id q) }

/-- What a caller sees of a failed transaction. -/
def masked (r : Except String Store) : Except String Store :=
  r.mapError fun _ => "充值失败，请稍后重试"

/-! ## Credits -/

/-- The units of `amount` priced units, as an integer. -/
def amountCredit (quotaPerUnit : ℚ) (topUp : TopUp) : Int :=
  Decimal.intPart (topUp.amount * quotaPerUnit)

/-- The units an administrator's completion adds: by the money of a Stripe order, by the amount of
any other. -/
def manualCredit (quotaPerUnit : ℚ) (topUp : TopUp) : Int :=
  if topUp.paymentProvider = .stripe then Decimal.intPart (topUp.money * quotaPerUnit)
  else amountCredit quotaPerUnit topUp

/-! ## Completing functions -/

section
variable (h : Host) (quotaPerUnit : ℚ) (io : Io) (now : Int)

/-- `Recharge`: a Stripe notification. -/
def recharge (referenceId customerId : String) (s : Store) : Except String Store :=
  if referenceId = "" then .error "未提供支付单号"
  else masked <|
    match s.topUps.get? referenceId with
    | none => .error "充值订单不存在"
    | some topUp =>
      if topUp.paymentProvider ≠ .stripe then .error "payment method mismatch"
      else if topUp.status ≠ .pending then .error "充值订单状态错误"
      else
        let quota := h.fmul topUp.money quotaPerUnit
        s.complete io now topUp
          { quota := fun q => h.addFloat q quota, stripeCustomer := some customerId }

/-- `RechargeCreem`: a Creem notification. The customer's address is stored for a user who has
none. -/
def rechargeCreem (referenceId customerEmail : String) (s : Store) : Except String Store :=
  if referenceId = "" then .error "未提供支付单号"
  else masked <|
    match s.topUps.get? referenceId with
    | none => .error "充值订单不存在"
    | some topUp =>
      if topUp.paymentProvider ≠ .creem then .error "payment method mismatch"
      else if topUp.status ≠ .pending then .error "充值订单状态错误"
      else if customerEmail = "" then
        s.complete io now topUp { quota := fun q => some (q + topUp.amount) }
      else
        match s.users.get? topUp.userId with
        | none => .error "record not found"
        | some user =>
          s.complete io now topUp
            { quota := fun q => some (q + topUp.amount)
              email := if user.email = "" then some customerEmail else none }

/-- The two Waffo completions: done already is no error, and a credit that is not positive is. -/
def rechargePriced (provider : PaymentProvider) (tradeNo : String) (s : Store) :
    Except String Store :=
  if tradeNo = "" then .error "未提供支付单号"
  else masked <|
    match s.topUps.get? tradeNo with
    | none => .error "充值订单不存在"
    | some topUp =>
      if topUp.paymentProvider ≠ provider then .error "payment method mismatch"
      else if topUp.status = .success then .ok s
      else if topUp.status ≠ .pending then .error "充值订单状态错误"
      else
        let quotaToAdd := amountCredit quotaPerUnit topUp
        if quotaToAdd ≤ 0 then .error "无效的充值额度"
        else s.complete io now topUp { quota := fun q => some (q + quotaToAdd) }

/-- `RechargeWaffo`: a Waffo notification. -/
def rechargeWaffo : String → Store → Except String Store :=
  rechargePriced quotaPerUnit io now .waffo

/-- `RechargeWaffoPancake`: a Waffo Pancake notification. -/
def rechargeWaffoPancake : String → Store → Except String Store :=
  rechargePriced quotaPerUnit io now .waffoPancake

/-- `ManualCompleteTopUp`: an administrator completes an order of any provider. -/
def manualCompleteTopUp (tradeNo : String) (s : Store) : Except String Store :=
  if tradeNo = "" then .error "未提供订单号"
  else
    match s.topUps.get? tradeNo with
    | none => .error "充值订单不存在"
    | some topUp =>
      if topUp.status = .success then .ok s
      else if topUp.status ≠ .pending then .error "订单状态不是待支付，无法补单"
      else
        let quotaToAdd := manualCredit quotaPerUnit topUp
        if quotaToAdd ≤ 0 then .error "无效的充值额度"
        else s.complete io now topUp { quota := fun q => some (q + quotaToAdd) }

/-- `UpdatePendingTopUpStatus`: give a pending order another status. No expected provider (an empty
one in the source) matches every order. -/
def updatePendingTopUpStatus (tradeNo : String) (expectedPaymentProvider : Option PaymentProvider)
    (targetStatus : TopUpStatus) (s : Store) : Except String Store :=
  if tradeNo = "" then .error "未提供支付单号"
  else
    match s.topUps.get? tradeNo with
    | none => .error "topup not found"
    | some topUp =>
      if expectedPaymentProvider.any (topUp.paymentProvider ≠ ·) then
        .error "payment method mismatch"
      else if topUp.status ≠ .pending then .error "topup status invalid"
      else
        match io.save with
        | some e => .error e
        | none =>
          .ok { s with
            topUps := s.topUps.modify topUp.tradeNo (withStatus targetStatus)
              (withStatus_tradeNo targetStatus) }

end

end TopUp

end NewApi
