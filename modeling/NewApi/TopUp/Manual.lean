import NewApi.TopUp.Request

/-!
# Manual completion against the provider's notification

An order may be completed by its provider's notification (`notify`) or by an administrator
(`manualCompleteTopUp`). For each the number of units it adds to the user's quota is computed once,
for a pending order of a present user; the two are then compared provider by provider. They agree
for Epay and both Waffos, for Stripe as far as the `float64` product and the database's rounding
agree with decimal arithmetic, and for Creem, whose amount is already quota, only where the
administrator's multiplication by `quotaPerUnit` changes nothing.
-/

namespace NewApi.TopUp

/-- The store a transaction leaves. -/
def after (s : Store) : Except String Store → Store
  | .ok s' => s'
  | .error _ => s

/-- The units added to a user's quota. -/
def added (s s' : Store) (id : Nat) : Int :=
  (s'.users.quotaOf id).getD 0 - (s.users.quotaOf id).getD 0

/-- `EpayNotify`, from a verified notification of success on. Unlike the other completions it is no
transaction: the order is marked first, and a refused or failed credit leaves it marked. -/
def epayNotify (quotaPerUnit : ℚ) (io : Io) (tradeNo payType : String) (s : Store) : Store :=
  match s.topUps.get? tradeNo with
  | none => s
  | some topUp =>
    if topUp.paymentProvider ≠ .epay then s
    else if topUp.status ≠ .pending then s
    else
      match io.save with
      | some _ => s
      | none =>
        let saved := s.topUps.modify tradeNo
          (fun o => { o with paymentMethod := payType, status := .success }) fun _ => rfl
        let quotaToAdd := amountCredit quotaPerUnit topUp
        -- `IncreaseUserQuota` refuses a negative quota
        if quotaToAdd < 0 then { s with topUps := saved }
        else
          match io.update with
          | some _ => { s with topUps := saved }
          | none => { topUps := saved, users := s.users.addQuota topUp.userId quotaToAdd }

/-- What a notification says beside the order: how it was paid, and by whom. -/
structure Notification where
  payType : String := ""
  customerId : String := ""
  customerEmail : String := ""

section
variable (h : Host) (quotaPerUnit : ℚ) (now : Int) (note : Notification)

/-- The completion that the notification of the order's own provider calls. -/
def notify (o : TopUp) (s : Store) : Store :=
  match o.paymentProvider with
  | .unset => s
  | .epay => epayNotify quotaPerUnit {} o.tradeNo note.payType s
  | .stripe => after s (recharge h quotaPerUnit {} now o.tradeNo note.customerId s)
  | .creem => after s (rechargeCreem {} now o.tradeNo note.customerEmail s)
  | .waffo => after s (rechargeWaffo quotaPerUnit {} now o.tradeNo s)
  | .waffoPancake => after s (rechargeWaffoPancake quotaPerUnit {} now o.tradeNo s)

/-- When the two completions of an order add the same to a quota. A Creem order's amount has to
survive the multiplication by `quotaPerUnit`; for a Stripe order, the `float64` product has to be the
integer part of the decimal one where it is an integer, and has to be rounded to it by the database
where it is not. -/
def Agrees (quota : Int) (o : TopUp) : Prop :=
  match o.paymentProvider with
  | .creem => o.amount = 0 ∨ 0 < o.amount ∧ Decimal.intPart (o.amount * quotaPerUnit) = o.amount
  | .stripe =>
    let product := h.fmul o.money quotaPerUnit
    let units := max 0 (Decimal.intPart (o.money * quotaPerUnit))
    if product.den = 1 then product.num = units
    else (h.addFloat quota product).getD quota = quota + units
  | _ => True

end

/-! ## What each completion adds -/

section
variable {h : Host} {quotaPerUnit : ℚ} {now : Int} {s : Store} {o : TopUp} {u : User}

theorem complete_added {upd : UserUpdates} (hu : s.users.get? o.userId = some u) :
    added s (after s (s.complete {} now o upd)) o.userId =
      (upd.quota u.quota).getD u.quota - u.quota := by
  unfold Store.complete
  rw [hu]
  cases hupd : upd.quota u.quota with
  | none => simp [after, added, hupd]
  | some q =>
    have hq' : (s.users.modify o.userId (upd.apply q) (upd.apply_id q)).get? o.userId =
        some (upd.apply q u) := by
      rw [Table.get?_modify_self, hu, Option.map_some]
    simp [after, added, hupd, Users.quotaOf, hq', hu]

theorem complete_added_int {upd : UserUpdates} {n : Int} (hu : s.users.get? o.userId = some u)
    (hupd : upd.quota = fun q => some (q + n)) :
    added s (after s (s.complete {} now o upd)) o.userId = n := by
  rw [complete_added hu, hupd, Option.getD_some, add_sub_cancel_left]

theorem after_masked (r : Except String Store) : after s (masked r) = after s r := by
  cases r <;> rfl

theorem added_self (id : Nat) : added s s id = 0 := sub_self _

variable (ht : o.tradeNo ≠ "") (ho : s.topUps.get? o.tradeNo = some o) (hp : o.status = .pending)
  (hu : s.users.get? o.userId = some u)
include ht ho hp hu

theorem manual_added :
    added s (after s (manualCompleteTopUp quotaPerUnit {} now o.tradeNo s)) o.userId =
      max 0 (manualCredit quotaPerUnit o) := by
  simp only [manualCompleteTopUp, if_neg ht, ho, hp, reduceCtorEq, if_false, ne_eq,
    not_true_eq_false]
  split
  next hle => rw [after, added_self, max_eq_left hle]
  next hlt => rw [complete_added_int hu rfl, max_eq_right (by omega)]

theorem rechargePriced_added {p : PaymentProvider} (hprov : o.paymentProvider = p) :
    added s (after s (rechargePriced quotaPerUnit {} now p o.tradeNo s)) o.userId =
      max 0 (amountCredit quotaPerUnit o) := by
  simp only [rechargePriced, after_masked, if_neg ht, ho, hp, hprov, reduceCtorEq, if_false, ne_eq,
    not_true_eq_false]
  split
  next hle => rw [after, added_self, max_eq_left hle]
  next hlt => rw [complete_added_int hu rfl, max_eq_right (by omega)]

theorem rechargeCreem_added {email : String} (hprov : o.paymentProvider = .creem) :
    added s (after s (rechargeCreem {} now o.tradeNo email s)) o.userId = o.amount := by
  simp only [rechargeCreem, after_masked, if_neg ht, ho, hp, hprov, hu, if_false, ne_eq,
    not_true_eq_false]
  split
  · exact complete_added_int hu rfl
  · exact complete_added_int hu rfl

/-- A Stripe notification adds what the database makes of the `float64` product. -/
theorem recharge_added {customer : String} (hprov : o.paymentProvider = .stripe) :
    added s (after s (recharge h quotaPerUnit {} now o.tradeNo customer s)) o.userId =
      (h.addFloat u.quota (h.fmul o.money quotaPerUnit)).getD u.quota - u.quota := by
  simp only [recharge, after_masked, if_neg ht, ho, hp, hprov, if_false, ne_eq, not_true_eq_false]
  exact complete_added hu

omit ht in
theorem epayNotify_added {payType : String} (hprov : o.paymentProvider = .epay) :
    added s (epayNotify quotaPerUnit {} o.tradeNo payType s) o.userId =
      max 0 (amountCredit quotaPerUnit o) := by
  simp only [epayNotify, ho, hp, hprov, if_false, ne_eq, not_true_eq_false]
  split
  next hlt =>
    rw [max_eq_left (by omega)]
    exact sub_self _
  next hle =>
    have hq : s.users.quotaOf o.userId = some u.quota := by rw [Users.quotaOf, hu]; rfl
    rw [max_eq_right (by omega)]
    simp [added, Users.quotaOf_addQuota, hq]

/-- The administrator's credit and the notification's agree just when `Agrees` says so. -/
theorem manual_added_eq_iff (note : Notification) (hint : ∀ q n : Int, h.addFloat q n = some (q + n))
    (hprov : o.paymentProvider ≠ .unset) :
    added s (after s (manualCompleteTopUp quotaPerUnit {} now o.tradeNo s)) o.userId =
        added s (notify h quotaPerUnit now note o s) o.userId ↔
      Agrees h quotaPerUnit u.quota o := by
  rw [manual_added ht ho hp hu]
  cases hcase : o.paymentProvider with
  | unset => exact absurd hcase hprov
  | epay =>
    simp only [notify, Agrees, hcase, epayNotify_added ho hp hu hcase, manualCredit, reduceCtorEq,
      if_false]
  | waffo =>
    simp only [notify, Agrees, hcase, rechargeWaffo, rechargePriced_added ht ho hp hu hcase,
      manualCredit, reduceCtorEq, if_false]
  | waffoPancake =>
    simp only [notify, Agrees, hcase, rechargeWaffoPancake,
      rechargePriced_added ht ho hp hu hcase, manualCredit, reduceCtorEq, if_false]
  | creem =>
    simp only [notify, Agrees, hcase, rechargeCreem_added ht ho hp hu hcase, manualCredit,
      amountCredit, reduceCtorEq, if_false]
    rcases lt_trichotomy o.amount 0 with hneg | hzero | hpos
    · have hmax := le_max_left 0 (Decimal.intPart (o.amount * quotaPerUnit))
      exact ⟨fun heq => by omega, fun hor => by omega⟩
    · simp [hzero]
    · rw [max_eq_iff]
      omega
  | stripe =>
    simp only [notify, Agrees, hcase, recharge_added ht ho hp hu hcase, manualCredit, if_true]
    split
    next hden =>
      -- the product is an integer, which every database adds as such
      have hnum : ((h.fmul o.money quotaPerUnit).num : ℚ) = h.fmul o.money quotaPerUnit :=
        (Rat.den_eq_one_iff _).1 hden
      have hadd := hint u.quota (h.fmul o.money quotaPerUnit).num
      rw [hnum] at hadd
      rw [hadd, Option.getD_some, add_sub_cancel_left]
      exact eq_comm
    next => omega

end

/-! ## Orders as the handlers create them -/

theorem order_of_guard {c : Prop} [Decidable c] {msg : String} {r : Reply} {o : TopUp}
    (h : (if c then Reply.refuse msg else r).order = some o) : r.order = some o := by
  by_cases hc : c
  · rw [if_pos hc] at h; cases h
  · rwa [if_neg hc] at h

theorem failedIfRefused_order {ctx : PayContext} {o o' : TopUp}
    (h : (failedIfRefused ctx o).order = some o') :
    o'.paymentProvider = o.paymentProvider ∧ o'.tradeNo = o.tradeNo := by
  unfold failedIfRefused at h
  split at h <;> cases h <;> exact ⟨rfl, rfl⟩

theorem requestPay_order {cfg : Setting} {h : Host} {ctx : PayContext} {req : PayRequest} {o : TopUp}
    (hreq : (requestPay cfg h ctx req).order = some o) :
    o.paymentProvider = req.provider ∧ o.tradeNo ≠ "" := by
  cases req with
  | epay amount method =>
    have hreq := order_of_guard (order_of_guard (order_of_guard hreq))
    split at hreq
    · cases hreq
    · cases hreq
      exact ⟨rfl, by simp [pending]⟩
  | stripe amount method ok cancel =>
    have hreq := order_of_guard (order_of_guard (order_of_guard (order_of_guard
      (order_of_guard hreq))))
    split at hreq
    · cases hreq
    · cases hreq
      exact ⟨rfl, by simp [pending]⟩
  | creem product method =>
    have hreq := order_of_guard (order_of_guard hreq)
    split at hreq
    · cases hreq
    · cases hreq
      exact ⟨rfl, by simp [pending]⟩
  | waffo amount idx ty name =>
    have hreq := order_of_guard (order_of_guard (order_of_guard (order_of_guard hreq)))
    obtain ⟨hprov, htrade⟩ := failedIfRefused_order hreq
    exact ⟨hprov, by rw [htrade]; simp [pending]⟩
  | waffoPancake amount =>
    have hreq := order_of_guard (order_of_guard (order_of_guard (order_of_guard hreq)))
    obtain ⟨hprov, htrade⟩ := failedIfRefused_order hreq
    exact ⟨hprov, by rw [htrade]; simp [pending]⟩

/-- **Manual completion.** For every order a handler has created and that is still pending, an
administrator's completion adds to its user's quota what the provider's own notification would have
added just when `Agrees` holds of the order: always for Epay and both Waffos. An integral increment
is the one thing assumed of the database. -/
theorem manual_agrees_with_notification {cfg : Setting} {h : Host} {ctx : PayContext}
    {req : PayRequest} {o : TopUp} {s : Store} {u : User} {now : Int} {note : Notification}
    (hint : ∀ q n : Int, h.addFloat q n = some (q + n))
    (hreq : (requestPay cfg h ctx req).order = some o) (hp : o.status = .pending)
    (ho : s.topUps.get? o.tradeNo = some o) (hu : s.users.get? o.userId = some u) :
    added s (after s (manualCompleteTopUp cfg.quotaPerUnit {} now o.tradeNo s)) o.userId =
        added s (notify h cfg.quotaPerUnit now note o s) o.userId ↔
      Agrees h cfg.quotaPerUnit u.quota o := by
  obtain ⟨hprov, ht⟩ := requestPay_order hreq
  refine manual_added_eq_iff ht ho hp hu note hint ?_
  rw [hprov]
  cases req <;> exact fun hunset => by cases hunset

/-- A shop that sells one Creem product, of a hundred units of quota for five dollars. -/
def creemShop : Setting where
  quotaPerUnit := 500000
  displayTokens := false
  minTopUp := 1
  stripeMinTopUp := 1
  waffoMinTopUp := 1
  waffoPancakeMinTopUp := 1
  topupGroupRatio := []
  usdExchangeRate := 7
  price := 7
  amountDiscount := []
  payMethods := []
  waffoEnabled := false
  waffoPancakeEnabled := false
  waffoPancakeConfigured := false
  waffoUnitPrice := 1
  waffoPancakeUnitPrice := 1
  waffoPayMethods := []
  creemProducts := [{ productId := "prod_1", price := 5, quota := 100 }]
  trustedRedirect _ := false

/-- The order of that product. -/
def creemOrder : TopUp :=
  pending { id := 1, quota := 0 } "ref_1" "creem" .creem 0 100 5

theorem creemOrder_manualCredit : manualCredit 500000 creemOrder = 50000000 := by
  have hmul : ((creemOrder.amount : ℚ) * 500000) = ((50000000 : Int) : ℚ) := by
    norm_num [creemOrder, pending]
  rw [manualCredit, if_neg (by decide), amountCredit, hmul, Decimal.intPart_intCast (by decide)]

/-- The store holding that order. -/
def creemStore : Store where
  topUps := ⟨[creemOrder], by decide⟩
  users := ⟨[{ id := 1, quota := 0 }], by decide⟩

/-- The comparison for that order, whose two sides differ: the condition fails. -/
theorem manual_agrees_with_notification_creem :
    added creemStore (after creemStore (manualCompleteTopUp 500000 {} 0 "ref_1" creemStore)) 1 =
        added creemStore (notify .exact 500000 0 {} creemOrder creemStore) 1 ↔
      Agrees .exact 500000 0 creemOrder := by
  have hreq : (requestPay creemShop .exact { user := { id := 1, quota := 0 }, unique := "1" }
      (.creem "prod_1" "creem")).order = some creemOrder := by decide
  have hu : creemStore.users.get? creemOrder.userId = some { id := 1, quota := 0 } := by decide
  -- Stated as the theorem has it: the numbers of the statement are found in it by computation.
  have hagrees : added creemStore
      (after creemStore (manualCompleteTopUp creemShop.quotaPerUnit {} 0 creemOrder.tradeNo creemStore))
        creemOrder.userId =
        added creemStore (notify .exact creemShop.quotaPerUnit 0 {} creemOrder creemStore) creemOrder.userId ↔
      Agrees .exact creemShop.quotaPerUnit 0 creemOrder :=
    manual_agrees_with_notification (fun q n => by simp [Host.exact]) hreq (by decide) (by decide) hu
  exact hagrees

/-- An administrator adds fifty million units for an order whose notification adds a hundred. -/
theorem manual_differs_from_creem_notification :
    added creemStore (after creemStore (manualCompleteTopUp 500000 {} 0 "ref_1" creemStore)) 1 =
        50000000 ∧
      added creemStore (notify .exact 500000 0 {} creemOrder creemStore) 1 = 100 := by
  have hu : creemStore.users.get? creemOrder.userId = some { id := 1, quota := 0 } := by decide
  constructor
  · show added creemStore (after creemStore
      (manualCompleteTopUp 500000 {} 0 creemOrder.tradeNo creemStore)) creemOrder.userId = 50000000
    rw [manual_added (by decide) (by decide) (by decide) hu, creemOrder_manualCredit]
    decide
  · show added creemStore (after creemStore
      (rechargeCreem {} 0 creemOrder.tradeNo "" creemStore)) creemOrder.userId = 100
    exact rechargeCreem_added (by decide) (by decide) (by decide) hu (by decide)

end NewApi.TopUp
