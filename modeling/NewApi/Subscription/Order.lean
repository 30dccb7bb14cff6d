import NewApi.Lib.Procs
import NewApi.Subscription.Model
import NewApi.TopUp.Model

/-!
# Subscription orders, one statement at a time

`CompleteSubscriptionOrder` is a transaction: it reads the order and its plan, counts the subscriptions the user has of
the plan, reads the user's group and the top-up of the trade number, writes all of them, and commits.
`ExpireSubscriptionOrder` reads the order and writes it. The readers ask for a lock with `gorm:query_option`, which
the second version of gorm does not know, so they take none. What a transaction writes is seen by others when it has
committed; of two that write one row the second waits for the first, so that the writes are made at the commit here.

Two transactions may read a pending order, or count the same subscriptions, before one of them commits. What is
promised of the orders holds in exactly the runs where each call that commits finds its order still without success,
and the user still below the limit of the plan (`orders_sound_iff`).
-/

namespace NewApi

/-- `SubscriptionOrder`. -/
structure SubscriptionOrder where
  userId : Nat
  planId : Nat
  money : ℚ
  tradeNo : String
  paymentMethod : String
  paymentProvider : PaymentProvider
  status : TopUpStatus := .pending
  createTime : Int := 0
  completeTime : Int := 0
  providerPayload : String := ""
deriving DecidableEq

namespace SubscriptionOrders

open Run Procs

/-- Why a call fails. -/
inductive OrderError
  | emptyTradeNo
  | orderNotFound
  | paymentMethodMismatch
  | orderStatusInvalid
  | invalidPlanId
  | planNotFound
  | subscription (e : SubscriptionError)
  | duplicateTradeNo
  | database
deriving DecidableEq

/-- What is committed. `trade_no` is a unique column of both tables that have one. -/
structure Shared where
  orders : Table SubscriptionOrder.tradeNo
  store : SubscriptionStore
  topUps : Table TopUp.tradeNo

/-- A call of a provider's callback. The provider `unset` skips the check of the provider. -/
inductive Call
  | complete (tradeNo providerPayload : String) (expectedPaymentProvider : PaymentProvider)
      (actualPaymentMethod : String)
  | expire (tradeNo : String) (expectedPaymentProvider : PaymentProvider)
deriving DecidableEq

def Call.tradeNo : Call → String
  | complete tradeNo _ _ _ => tradeNo
  | expire tradeNo _ => tradeNo

def Call.expectedPaymentProvider : Call → PaymentProvider
  | complete _ _ provider _ => provider
  | expire _ provider => provider

def Call.providerPayload : Call → String
  | complete _ providerPayload _ _ => providerPayload
  | expire _ _ => ""

def Call.actualPaymentMethod : Call → String
  | complete _ _ _ actualPaymentMethod => actualPaymentMethod
  | expire _ _ => ""

/-- Where a call is, with what its transaction has read, and is to write. -/
inductive Phase
  | reading
  | counting (order : SubscriptionOrder) (plan : SubscriptionPlan)
  | grouping (order : SubscriptionOrder) (plan : SubscriptionPlan)
  | upserting (order : SubscriptionOrder) (sub : UserSubscription) (group : Option String)
  | completing (order : SubscriptionOrder) (sub : UserSubscription) (group : Option String) (topUp : TopUp)
      (isNew : Bool)
  | expiring (order : SubscriptionOrder)
  | failed (e : OrderError)
  | completed
  | ended
deriving DecidableEq

/-- A call that is under way. -/
structure Proc where
  call : Call
  phase : Phase := .reading
deriving DecidableEq

/-- What a statement meets: whether it fails, and the time. -/
structure Io where
  fails : Bool := false
  now : Int := 0
deriving DecidableEq

/-- How many subscriptions of a plan a user has. -/
def held (userId planId : Nat) (s : Shared) : Nat :=
  s.store.subs.rows.countP fun sub => sub.userId = userId ∧ sub.planId = planId

section
variable (cal : Calendar) (plans : Table SubscriptionPlan.id)

/-- The first statement of a call: the order is read and checked, and then its plan, by `GetSubscriptionPlanById`. -/
def readOrder (s : Shared) (call : Call) (io : Io) : Phase :=
  if call.tradeNo = "" then .failed .emptyTradeNo
  else if io.fails then .failed .orderNotFound
  else
    match s.orders.get? call.tradeNo with
    | none => .failed .orderNotFound
    | some order =>
      if call.expectedPaymentProvider ≠ .unset ∧ order.paymentProvider ≠ call.expectedPaymentProvider then
        .failed .paymentMethodMismatch
      else
        match call with
        | .expire _ _ =>
          if order.status ≠ .pending then .ended
          else .expiring { order with status := .expired, completeTime := io.now }
        | .complete _ _ _ _ =>
          if order.status = .success then .ended
          else if order.status ≠ .pending then .failed .orderStatusInvalid
          else if order.planId = 0 then .failed .invalidPlanId
          else
            match plans.get? order.planId with
            | none => .failed .planNotFound
            | some plan => .counting order plan

/-- The checks of `CreateUserSubscriptionFromPlanTx`. -/
def countHeld (s : Shared) (order : SubscriptionOrder) (plan : SubscriptionPlan) (io : Io) : Phase :=
  if plan.id = 0 then .failed (.subscription .invalidPlan)
  else if order.userId = 0 then .failed (.subscription .invalidUserId)
  else if plan.maxPurchasePerUser > 0 then
    if io.fails then .failed .database
    else if (held order.userId plan.id s : Int) ≥ plan.maxPurchasePerUser then
      .failed (.subscription .purchaseLimit)
    else .grouping order plan
  else .grouping order plan

/-- The group that `CreateUserSubscriptionFromPlanTx` moves the user to, and the subscription it creates. -/
def readGroup (s : Shared) (order : SubscriptionOrder) (plan : SubscriptionPlan) (io : Io) : Phase :=
  match calcPlanEndTime cal io.now plan with
  | .error e => .failed (.subscription e)
  | .ok endUnix =>
    let upgradeGroup := GoString.trimSpace plan.upgradeGroup
    if upgradeGroup ≠ "" ∧ io.fails then .failed .database
    else
      .upserting order (s.store.newSubscription cal 0 order.userId plan "order" io.now endUnix)
        (if upgradeGroup ≠ "" ∧ s.store.getUserGroupById order.userId ≠ upgradeGroup then some upgradeGroup else none)

/-- What `CompleteSubscriptionOrder` saves of the order. -/
def completedOrder (order : SubscriptionOrder) (call : Call) (now : Int) : SubscriptionOrder :=
  { order with
    status := .success
    completeTime := now
    providerPayload := if call.providerPayload ≠ "" then call.providerPayload else order.providerPayload
    paymentMethod := if call.actualPaymentMethod ≠ "" then call.actualPaymentMethod else order.paymentMethod }

/-- `upsertSubscriptionTopUpTx`. -/
def upsertTopUp (s : Shared) (call : Call) (order : SubscriptionOrder) (sub : UserSubscription)
    (group : Option String) (io : Io) : Phase :=
  if io.fails then .failed .database
  else
    match s.topUps.get? order.tradeNo with
    | none =>
      .completing (completedOrder order call io.now) sub group
        { tradeNo := order.tradeNo, userId := order.userId, amount := 0, money := order.money,
          paymentMethod := order.paymentMethod, paymentProvider := .unset, createTime := order.createTime,
          completeTime := io.now, status := .success } true
    | some topUp =>
      if topUp.paymentMethod ≠ "" ∧ topUp.paymentMethod ≠ order.paymentMethod then .failed .paymentMethodMismatch
      else
        .completing (completedOrder order call io.now) sub group
          { topUp with
            money := order.money
            paymentMethod := order.paymentMethod
            createTime := if topUp.createTime = 0 then order.createTime else topUp.createTime
            completeTime := io.now
            status := .success } false

/-- `Save` of an order. -/
def saveOrder (tradeNo : String) (order : SubscriptionOrder) (s : Shared) : Shared :=
  { s with orders := s.orders.modify tradeNo (fun row => { order with tradeNo := row.tradeNo }) fun _ => rfl }

/-- The writes of `CompleteSubscriptionOrder`; the database assigns the id of the subscription. -/
def commitCompleted (tradeNo : String) (order : SubscriptionOrder) (sub : UserSubscription) (group : Option String)
    (topUp : TopUp) (isNew : Bool) (s : Shared) : Shared :=
  let s := saveOrder tradeNo order s
  { s with
    store := { s.store with
      users :=
        match group with
        | none => s.store.users
        | some group => s.store.users.setGroup sub.userId group
      subs := s.store.subs.insertNew { sub with id := s.store.subs.nextKey } }
    topUps :=
      if isNew then s.topUps.insertNew topUp
      else s.topUps.modify topUp.tradeNo (fun row => { topUp with tradeNo := row.tradeNo }) fun _ => rfl }

/-- A new top-up whose trade number another one has does not go in. -/
def Duplicate (s : Shared) (topUp : TopUp) (isNew : Bool) : Prop :=
  isNew = true ∧ (s.topUps.get? topUp.tradeNo).isSome

instance (s : Shared) (topUp : TopUp) (isNew : Bool) : Decidable (Duplicate s topUp isNew) :=
  inferInstanceAs (Decidable (_ ∧ _))

/-- The next statement of a call. -/
def prog (s : Shared) (p : Proc) (io : Io) : Shared × Proc :=
  match p.phase with
  | .reading => (s, { p with phase := readOrder plans s p.call io })
  | .counting order plan => (s, { p with phase := countHeld s order plan io })
  | .grouping order plan => (s, { p with phase := readGroup cal s order plan io })
  | .upserting order sub group => (s, { p with phase := upsertTopUp s p.call order sub group io })
  | .completing order sub group topUp isNew =>
    if io.fails then (s, { p with phase := .failed .database })
    else if Duplicate s topUp isNew then (s, { p with phase := .failed .duplicateTradeNo })
    else (commitCompleted order.tradeNo order sub group topUp isNew s, { p with phase := .completed })
  | .expiring order =>
    if io.fails then (s, { p with phase := .failed .database })
    else (saveOrder order.tradeNo order s, { p with phase := .ended })
  | .failed _ | .completed | .ended => (s, p)

def step : Procs Shared Proc → Act Call Io → Procs Shared Proc := Procs.step (fun call => { call }) (prog cal plans)

end

/-- Nobody has called. -/
def start (s : Shared) : Procs Shared Proc := ⟨s, []⟩

/-! ## What is promised -/

/-- The call has made a subscription from the order of a trade number. -/
def Proc.yields (tradeNo : String) (p : Proc) : Bool := p.phase = .completed ∧ p.call.tradeNo = tradeNo

/-- The subscriptions that an order has yielded. -/
def yielded (tradeNo : String) (S : Procs Shared Proc) : Nat := S.procs.countP (Proc.yields tradeNo)

/-- No user has more subscriptions of a plan than it allows. -/
def Capped (plans : Table SubscriptionPlan.id) (s : Shared) : Prop :=
  ∀ plan ∈ plans, plan.maxPurchasePerUser > 0 → ∀ userId, (held userId plan.id s : Int) ≤ plan.maxPurchasePerUser

/-- An order has yielded at most one subscription, and then has success; the plans are within their limits. -/
structure Sound (plans : Table SubscriptionPlan.id) (rows : Nat) (S : Procs Shared Proc) : Prop where
  once : ∀ tradeNo, yielded tradeNo S ≤ 1
  success : ∀ tradeNo, 0 < yielded tradeNo S →
    ∃ order, S.shared.orders.get? tradeNo = some order ∧ order.status = .success
  capped : Capped plans S.shared
  /-- Each subscription that there was not before has been yielded by an order. -/
  yields : S.shared.store.subs.rows.length = rows + S.procs.countP fun p => p.phase = .completed

/-- A call names another provider than its order has. -/
def NamesOther (s : Shared) (call : Call) : Prop :=
  call.expectedPaymentProvider ≠ .unset ∧
    ∃ order, s.orders.get? call.tradeNo = some order ∧ order.paymentProvider ≠ call.expectedPaymentProvider

/-- A call that names another provider changes nothing. -/
def OthersChangeNothing (S : Procs Shared Proc) (a : Act Call Io) (S' : Procs Shared Proc) : Prop :=
  ∀ k io p, a = .sched k io → S.procs[k]? = some p → NamesOther S.shared p.call → S'.shared = S.shared

/-- The order has no success. -/
def Open (tradeNo : String) (s : Shared) : Prop :=
  ∀ order, s.orders.get? tradeNo = some order → order.status ≠ .success

/-- The condition on a statement: a call that commits finds its order without success, and one that makes a
subscription the user below the limit of the plan. -/
def CommitsInTime (plans : Table SubscriptionPlan.id) (s : Shared) (p : Proc) (io : Io) : Prop :=
  match p.phase with
  | .completing order sub _ topUp isNew =>
    io.fails = false → ¬ Duplicate s topUp isNew → Open order.tradeNo s ∧
      ∀ plan ∈ plans, plan.id = sub.planId → plan.maxPurchasePerUser > 0 →
        (held sub.userId sub.planId s : Int) < plan.maxPurchasePerUser
  | .expiring order => io.fails = false → Open order.tradeNo s
  | _ => True

/-! ## What the calls keep -/

/-- The order that a call has read is the one under its trade number, of the provider that the call names. -/
structure Reads (s₀ : Shared) (call : Call) (order : SubscriptionOrder) : Prop where
  tradeNo : order.tradeNo = call.tradeNo
  provider : (s₀.orders.get? call.tradeNo).map (·.paymentProvider) = some order.paymentProvider
  named : ¬ (call.expectedPaymentProvider ≠ .unset ∧ order.paymentProvider ≠ call.expectedPaymentProvider)

/-- What a call has read, and is to write. -/
def Local (s₀ : Shared) (call : Call) : Phase → Prop
  | .counting order _ | .grouping order _ | .upserting order _ _ => Reads s₀ call order
  | .completing order _ _ _ _ => Reads s₀ call order ∧ order.status = .success
  | .expiring order => Reads s₀ call order ∧ order.status = .expired
  | .reading | .failed _ | .completed | .ended => True

/-- Every statement keeps the providers of the orders; an order has success only when it has yielded. -/
structure Inv (s₀ : Shared) (S : Procs Shared Proc) : Prop where
  each : ∀ p ∈ S.procs, Local s₀ p.call p.phase
  providers : ∀ tradeNo, (S.shared.orders.get? tradeNo).map (·.paymentProvider) =
    (s₀.orders.get? tradeNo).map (·.paymentProvider)
  success : ∀ tradeNo order, S.shared.orders.get? tradeNo = some order → order.status = .success →
    0 < yielded tradeNo S
  yields : S.shared.store.subs.rows.length =
    s₀.store.subs.rows.length + S.procs.countP fun p => p.phase = .completed

section
variable {cal : Calendar} {plans : Table SubscriptionPlan.id} {s₀ s : Shared} {S : Procs Shared Proc} {p : Proc}
  {io : Io} {call : Call} {order : SubscriptionOrder} {plan : SubscriptionPlan} {sub : UserSubscription}
  {group : Option String} {topUp : TopUp} {isNew : Bool} {tradeNo : String}

theorem local_readOrder
    (hproviders : (s.orders.get? call.tradeNo).map (·.paymentProvider) =
      (s₀.orders.get? call.tradeNo).map (·.paymentProvider)) :
    Local s₀ call (readOrder plans s call io) := by
  unfold readOrder
  split
  · trivial
  split
  · trivial
  split
  · trivial
  next order horder =>
  split
  · trivial
  next hnamed =>
  have hreads : Reads s₀ call order := by
    refine ⟨Table.key_of_get? horder, ?_, hnamed⟩
    rw [← hproviders, horder]
    rfl
  split
  · split
    · trivial
    · exact ⟨⟨hreads.tradeNo, hreads.provider, hreads.named⟩, rfl⟩
  · split
    · trivial
    split
    · trivial
    split
    · trivial
    split
    · trivial
    · exact hreads

theorem local_countHeld (h : Reads s₀ call order) : Local s₀ call (countHeld s order plan io) := by
  unfold countHeld
  split
  · trivial
  split
  · trivial
  split
  · split
    · trivial
    split
    · trivial
    · exact h
  · exact h

theorem local_readGroup (h : Reads s₀ call order) : Local s₀ call (readGroup cal s order plan io) := by
  unfold readGroup
  split
  · trivial
  dsimp only
  split
  · trivial
  · exact h

theorem local_upsertTopUp (h : Reads s₀ call order) :
    Local s₀ call (upsertTopUp s call order sub group io) := by
  have hdone : Reads s₀ call (completedOrder order call io.now) ∧
      (completedOrder order call io.now).status = .success :=
    ⟨⟨h.tradeNo, h.provider, h.named⟩, rfl⟩
  unfold upsertTopUp
  split
  · trivial
  split
  · exact hdone
  split
  · trivial
  · exact hdone

/-! No statement before the commit completes a call. -/

theorem readOrder_ne_completed : readOrder plans s call io ≠ .completed := by
  unfold readOrder
  repeat' split
  all_goals exact nofun

theorem countHeld_ne_completed : countHeld s order plan io ≠ .completed := by
  unfold countHeld
  repeat' split
  all_goals exact nofun

theorem readGroup_ne_completed : readGroup cal s order plan io ≠ .completed := by
  unfold readGroup
  dsimp only
  repeat' split
  all_goals exact nofun

theorem upsertTopUp_ne_completed : upsertTopUp s call order sub group io ≠ .completed := by
  unfold upsertTopUp
  repeat' split
  all_goals exact nofun

theorem prog_cases (cal : Calendar) (plans : Table SubscriptionPlan.id) (s : Shared) (p : Proc) (io : Io) :
    (∃ order sub group topUp isNew, p.phase = .completing order sub group topUp isNew ∧ io.fails = false ∧
      ¬ Duplicate s topUp isNew ∧ prog cal plans s p io =
        (commitCompleted order.tradeNo order sub group topUp isNew s, { p with phase := .completed })) ∨
    (∃ order, p.phase = .expiring order ∧ io.fails = false ∧
      prog cal plans s p io = (saveOrder order.tradeNo order s, { p with phase := .ended })) ∨
    ((prog cal plans s p io).1 = s ∧ (prog cal plans s p io).2.call = p.call ∧
      ((prog cal plans s p io).2.phase = .completed ↔ p.phase = .completed) ∧ CommitsInTime plans s p io) := by
  obtain ⟨call, phase⟩ := p
  cases phase with
  | reading => exact .inr (.inr ⟨rfl, rfl, iff_of_false readOrder_ne_completed nofun, trivial⟩)
  | counting order plan => exact .inr (.inr ⟨rfl, rfl, iff_of_false countHeld_ne_completed nofun, trivial⟩)
  | grouping order plan => exact .inr (.inr ⟨rfl, rfl, iff_of_false readGroup_ne_completed nofun, trivial⟩)
  | upserting order sub group => exact .inr (.inr ⟨rfl, rfl, iff_of_false upsertTopUp_ne_completed nofun, trivial⟩)
  | completing order sub group topUp isNew =>
    unfold prog
    dsimp only
    cases hfails : io.fails with
    | true =>
      refine .inr (.inr ⟨rfl, rfl, iff_of_false nofun nofun, fun h => ?_⟩)
      rw [hfails] at h
      cases h
    | false =>
      rw [if_neg Bool.false_ne_true]
      by_cases hdup : Duplicate s topUp isNew
      · rw [if_pos hdup]
        exact .inr (.inr ⟨rfl, rfl, iff_of_false nofun nofun, fun _ h => absurd hdup h⟩)
      · rw [if_neg hdup]
        exact .inl ⟨order, sub, group, topUp, isNew, rfl, rfl, hdup, rfl⟩
  | expiring order =>
    unfold prog
    dsimp only
    cases hfails : io.fails with
    | true =>
      refine .inr (.inr ⟨rfl, rfl, iff_of_false nofun nofun, fun h => ?_⟩)
      rw [hfails] at h
      cases h
    | false => exact .inr (.inl ⟨order, rfl, rfl, rfl⟩)
  | failed e | completed | ended => exact .inr (.inr ⟨rfl, rfl, Iff.rfl, trivial⟩)

theorem local_prog (cal : Calendar) (plans : Table SubscriptionPlan.id) (io : Io)
    (hproviders : (s.orders.get? p.call.tradeNo).map (·.paymentProvider) =
      (s₀.orders.get? p.call.tradeNo).map (·.paymentProvider)) (h : Local s₀ p.call p.phase) :
    (prog cal plans s p io).2.call = p.call ∧ Local s₀ p.call (prog cal plans s p io).2.phase := by
  obtain ⟨call, phase⟩ := p
  cases phase with
  | reading => exact ⟨rfl, local_readOrder hproviders⟩
  | counting order plan => exact ⟨rfl, local_countHeld h⟩
  | grouping order plan => exact ⟨rfl, local_readGroup h⟩
  | upserting order sub group => exact ⟨rfl, local_upsertTopUp h⟩
  | completing order sub group topUp isNew =>
    unfold prog
    dsimp only
    split
    · exact ⟨rfl, trivial⟩
    split <;> exact ⟨rfl, trivial⟩
  | expiring order =>
    unfold prog
    dsimp only
    split <;> exact ⟨rfl, trivial⟩
  | failed e | completed | ended => exact ⟨rfl, trivial⟩

/-! ## What a commit writes -/

theorem get?_saveOrder (tradeNo' : String) :
    (saveOrder tradeNo order s).orders.get? tradeNo' =
      if tradeNo' = tradeNo then (s.orders.get? tradeNo').map fun row => { order with tradeNo := row.tradeNo }
      else s.orders.get? tradeNo' := by
  unfold saveOrder
  rw [Table.get?_modify]

theorem orders_commitCompleted :
    (commitCompleted tradeNo order sub group topUp isNew s).orders = (saveOrder tradeNo order s).orders := rfl

theorem rows_commitCompleted :
    (commitCompleted tradeNo order sub group topUp isNew s).store.subs.rows =
      s.store.subs.rows ++ [{ sub with id := s.store.subs.nextKey }] :=
  Table.rows_insertNew fun _ hc => (Table.key_lt_nextKey hc).ne

theorem held_commitCompleted (userId planId : Nat) :
    held userId planId (commitCompleted tradeNo order sub group topUp isNew s) =
      held userId planId s + if sub.userId = userId ∧ sub.planId = planId then 1 else 0 := by
  unfold held
  rw [rows_commitCompleted, List.countP_append, List.countP_singleton]
  simp only [decide_eq_true_eq]

theorem providers_saveOrder (hprovider : (s.orders.get? tradeNo).map (·.paymentProvider) = some order.paymentProvider)
    (tradeNo' : String) :
    ((saveOrder tradeNo order s).orders.get? tradeNo').map (·.paymentProvider) =
      (s.orders.get? tradeNo').map (·.paymentProvider) := by
  rw [get?_saveOrder]
  split
  next heq =>
    subst heq
    rw [hprovider]
    obtain ⟨row, hrow, -⟩ := Option.map_eq_some_iff.1 hprovider
    rw [hrow]
    rfl
  · rfl

theorem capped_commitCompleted (tradeNo : String) (order : SubscriptionOrder) (group : Option String) (topUp : TopUp)
    (isNew : Bool) (hcapped : Capped plans s) :
    Capped plans (commitCompleted tradeNo order sub group topUp isNew s) ↔
      ∀ plan ∈ plans, plan.id = sub.planId → plan.maxPurchasePerUser > 0 →
        (held sub.userId sub.planId s : Int) < plan.maxPurchasePerUser := by
  constructor
  · intro h plan hplan hid hmax
    have hle := h plan hplan hmax sub.userId
    rw [held_commitCompleted, if_pos ⟨rfl, hid.symm⟩, hid] at hle
    omega
  · intro h plan hplan hmax userId
    have hle := hcapped plan hplan hmax userId
    rw [held_commitCompleted]
    split
    next hand =>
      have hlt := h plan hplan hand.2.symm hmax
      rw [hand.1, hand.2] at hlt
      omega
    · exact hle

/-! ## Every statement -/

theorem inv_start (hpending : ∀ order ∈ s₀.orders, order.status = .pending) : Inv s₀ (start s₀) where
  each _ hp := by cases hp
  providers _ := rfl
  success tradeNo order horder hstatus := by
    rw [hpending order (Table.mem_of_get? horder)] at hstatus
    cases hstatus
  yields := rfl

theorem yielded_spawn (tradeNo : String) (call : Call) :
    yielded tradeNo (step cal plans S (.spawn call)) = yielded tradeNo S :=
  countP_spawn (Proc.yields tradeNo)

theorem completions_spawn (call : Call) :
    (step cal plans S (.spawn call)).procs.countP (fun p => p.phase = .completed) =
      S.procs.countP fun p => p.phase = .completed :=
  countP_spawn fun p : Proc => decide (p.phase = .completed)

theorem Inv.spawn (h : Inv s₀ S) (call : Call) : Inv s₀ (step cal plans S (.spawn call)) where
  each p hp := by
    rcases List.mem_append.1 hp with hp | hp
    · exact h.each p hp
    · rw [List.mem_singleton.1 hp]
      trivial
  providers := h.providers
  success tradeNo order horder hstatus := by
    rw [yielded_spawn]
    exact h.success tradeNo order horder hstatus
  yields := by
    rw [completions_spawn]
    exact h.yields

variable {k : Nat}

/-- A step of a call leads to a committed store, to more calls that have yielded a subscription of an order, and
to more that are completed. -/
structure StepTo (S S' : Procs Shared Proc) (s : Shared) (yields : String → Nat) (completes : Nat) : Prop where
  shared : S'.shared = s
  yielded : ∀ tradeNo, yielded tradeNo S' = yielded tradeNo S + yields tradeNo
  completed : S'.procs.countP (fun p => p.phase = .completed) =
    S.procs.countP (fun p => p.phase = .completed) + completes

theorem counts_sched (cal : Calendar) (plans : Table SubscriptionPlan.id) (io : Io) (hk : S.procs[k]? = some p)
    (tradeNo : String) :
    yielded tradeNo (step cal plans S (.sched k io)) + (p.yields tradeNo).toNat =
        yielded tradeNo S + ((prog cal plans S.shared p io).2.yields tradeNo).toNat ∧
      (step cal plans S (.sched k io)).procs.countP (fun p => p.phase = .completed) +
          (decide (p.phase = .completed)).toNat =
        S.procs.countP (fun p => p.phase = .completed) +
          (decide ((prog cal plans S.shared p io).2.phase = .completed)).toNat :=
  ⟨countP_sched (Proc.yields tradeNo) hk, countP_sched (fun p : Proc => decide (p.phase = .completed)) hk⟩

theorem shared_sched (hk : S.procs[k]? = some p) :
    (step cal plans S (.sched k io)).shared = (prog cal plans S.shared p io).1 :=
  congrArg Procs.shared (step_sched_some hk)

theorem stepTo_commit (hk : S.procs[k]? = some p) (hphase : p.phase = .completing order sub group topUp isNew)
    {s : Shared} (hprog : prog cal plans S.shared p io = (s, { p with phase := .completed })) :
    StepTo S (step cal plans S (.sched k io)) s (fun tradeNo => if p.call.tradeNo = tradeNo then 1 else 0) 1 := by
  have hcounts := counts_sched cal plans io hk
  rw [hprog] at hcounts
  unfold Proc.yields at hcounts
  rw [hphase] at hcounts
  simp only [reduceCtorEq, false_and, decide_false, Bool.toNat_false, add_zero, true_and, decide_true,
    Bool.toNat_true] at hcounts
  refine ⟨(shared_sched hk).trans (by rw [hprog]), fun tradeNo => (hcounts tradeNo).1.trans ?_, (hcounts "").2⟩
  by_cases htrade : p.call.tradeNo = tradeNo
  · simp [htrade]
  · simp [htrade]

theorem stepTo_other (hk : S.procs[k]? = some p) (hcall : (prog cal plans S.shared p io).2.call = p.call)
    (hphase : (prog cal plans S.shared p io).2.phase = .completed ↔ p.phase = .completed) :
    StepTo S (step cal plans S (.sched k io)) (prog cal plans S.shared p io).1 (fun _ => 0) 0 := by
  have hcounts := counts_sched cal plans io hk
  unfold Proc.yields at hcounts
  rw [hcall] at hcounts
  simp only [hphase] at hcounts
  exact ⟨shared_sched hk, fun tradeNo => Nat.add_right_cancel (hcounts tradeNo).1,
    Nat.add_right_cancel (hcounts "").2⟩

theorem sched_cases (cal : Calendar) (plans : Table SubscriptionPlan.id) (io : Io) (hk : S.procs[k]? = some p) :
    (∃ order sub group topUp isNew, p.phase = .completing order sub group topUp isNew ∧ io.fails = false ∧
      ¬ Duplicate S.shared topUp isNew ∧ StepTo S (step cal plans S (.sched k io))
        (commitCompleted order.tradeNo order sub group topUp isNew S.shared)
        (fun tradeNo => if p.call.tradeNo = tradeNo then 1 else 0) 1) ∨
    (∃ order, p.phase = .expiring order ∧ io.fails = false ∧
      StepTo S (step cal plans S (.sched k io)) (saveOrder order.tradeNo order S.shared) (fun _ => 0) 0) ∨
    (StepTo S (step cal plans S (.sched k io)) S.shared (fun _ => 0) 0 ∧ CommitsInTime plans S.shared p io) := by
  rcases prog_cases cal plans S.shared p io with
    ⟨order, sub, group, topUp, isNew, hphase, hfails, hdup, hprog⟩ | ⟨order, hphase, hfails, hprog⟩ |
      ⟨hshared, hcall, hdone, hcommits⟩
  · exact .inl ⟨order, sub, group, topUp, isNew, hphase, hfails, hdup, stepTo_commit hk hphase hprog⟩
  · have hto := stepTo_other hk (by rw [hprog]) (by rw [hprog, hphase]; exact iff_of_false nofun nofun)
    rw [hprog] at hto
    exact .inr (.inl ⟨order, hphase, hfails, hto⟩)
  · have hto := stepTo_other hk hcall hdone
    rw [hshared] at hto
    exact .inr (.inr ⟨hto, hcommits⟩)

theorem Reads.committed (hreads : Reads s₀ call order)
    (hproviders : ∀ tradeNo, (s.orders.get? tradeNo).map (·.paymentProvider) =
      (s₀.orders.get? tradeNo).map (·.paymentProvider)) :
    (s.orders.get? call.tradeNo).map (·.paymentProvider) = some order.paymentProvider :=
  (hproviders _).trans hreads.provider

theorem Reads.saveOrder (hreads : Reads s₀ call order)
    (hproviders : ∀ tradeNo, (s.orders.get? tradeNo).map (·.paymentProvider) =
      (s₀.orders.get? tradeNo).map (·.paymentProvider)) (tradeNo : String) :
    ((saveOrder order.tradeNo order s).orders.get? tradeNo).map (·.paymentProvider) =
      (s₀.orders.get? tradeNo).map (·.paymentProvider) := by
  rw [providers_saveOrder, hproviders]
  rw [hreads.tradeNo]
  exact hreads.committed hproviders

theorem Inv.sched (h : Inv s₀ S) (k : Nat) (io : Io) : Inv s₀ (step cal plans S (.sched k io)) := by
  cases hk : S.procs[k]? with
  | none =>
    unfold step
    rw [step_sched_none hk]
    exact h
  | some p =>
    have hp := h.each p (List.mem_of_getElem? hk)
    obtain ⟨hcall, hlocal⟩ := local_prog cal plans io (h.providers p.call.tradeNo) hp
    have heach : ∀ q ∈ (step cal plans S (.sched k io)).procs, Local s₀ q.call q.phase := by
      intro q hq
      unfold step at hq
      rw [step_sched_some hk] at hq
      rcases List.mem_or_eq_of_mem_set hq with hq | rfl
      · exact h.each q hq
      · rw [hcall]
        exact hlocal
    rcases sched_cases cal plans io hk with
      ⟨order, sub, group, topUp, isNew, hphase, -, -, hto⟩ | ⟨order, hphase, -, hto⟩ | ⟨hto, -⟩
    · rw [hphase] at hp
      refine ⟨heach, fun tradeNo => ?_, fun tradeNo row hrow hstatus => ?_, ?_⟩
      · rw [hto.shared, orders_commitCompleted]
        exact hp.1.saveOrder h.providers tradeNo
      · rw [hto.yielded]
        split
        · exact Nat.succ_pos _
        next hne =>
          rw [hto.shared, orders_commitCompleted, get?_saveOrder, hp.1.tradeNo, if_neg (Ne.symm hne)] at hrow
          exact h.success tradeNo row hrow hstatus
      · rw [hto.shared, rows_commitCompleted, List.length_append, List.length_singleton, h.yields, hto.completed]
        rfl
    · rw [hphase] at hp
      refine ⟨heach, fun tradeNo => ?_, fun tradeNo row hrow hstatus => ?_, ?_⟩
      · rw [hto.shared]
        exact hp.1.saveOrder h.providers tradeNo
      · rw [hto.yielded]
        rw [hto.shared, get?_saveOrder] at hrow
        split at hrow
        · obtain ⟨row', -, rfl⟩ := Option.map_eq_some_iff.1 hrow
          rw [hp.2] at hstatus
          cases hstatus
        · exact h.success tradeNo row hrow hstatus
      · rw [hto.shared, hto.completed]
        exact h.yields
    · refine ⟨heach, fun tradeNo => ?_, fun tradeNo row hrow hstatus => ?_, ?_⟩
      · rw [hto.shared]
        exact h.providers tradeNo
      · rw [hto.yielded]
        exact h.success tradeNo row (hto.shared ▸ hrow) hstatus
      · rw [hto.shared, hto.completed]
        exact h.yields

theorem open_iff {rows : Nat} (h : Inv s₀ S) (hS : Sound plans rows S) (tradeNo : String) :
    Open tradeNo S.shared ↔ yielded tradeNo S = 0 := by
  constructor
  · intro hopen
    by_contra hne
    obtain ⟨order, horder, hstatus⟩ := hS.success tradeNo (Nat.pos_of_ne_zero hne)
    exact hopen order horder hstatus
  · intro hzero order horder hstatus
    have := h.success tradeNo order horder hstatus
    omega

/-- A statement keeps what is promised just where it commits in time. -/
theorem sound_sched (h : Inv s₀ S) (hS : Sound plans s₀.store.subs.rows.length S) (k : Nat) (io : Io) :
    Sound plans s₀.store.subs.rows.length (step cal plans S (.sched k io)) ↔
      Each (ι := Call) (CommitsInTime plans) S (.sched k io) := by
  have hinv : Inv s₀ (step cal plans S (.sched k io)) := h.sched k io
  cases hk : S.procs[k]? with
  | none =>
    unfold step
    rw [step_sched_none hk]
    exact iff_of_true hS (each_of_none hk)
  | some p =>
    have hp := h.each p (List.mem_of_getElem? hk)
    rw [each_iff hk]
    rcases sched_cases cal plans io hk with
      ⟨order, sub, group, topUp, isNew, hphase, hfails, hdup, hto⟩ | ⟨order, hphase, hfails, hto⟩ | ⟨hto, hcommits⟩
    · rw [hphase] at hp
      unfold CommitsInTime
      rw [hphase]
      dsimp only
      simp only [hfails, hdup, not_false_eq_true, forall_const]
      rw [open_iff h hS, hp.1.tradeNo, ← capped_commitCompleted order.tradeNo order group topUp isNew hS.capped,
        ← hto.shared]
      constructor
      · intro hsound
        refine ⟨?_, hsound.capped⟩
        have honce := hsound.once p.call.tradeNo
        rw [hto.yielded, if_pos rfl] at honce
        omega
      · rintro ⟨hzero, hcapped⟩
        refine ⟨fun tradeNo => ?_, fun tradeNo hpos => ?_, hcapped, hinv.yields⟩
        · have honce := hS.once tradeNo
          rw [hto.yielded]
          split
          next heq =>
            rw [← heq, hzero]
          · exact honce
        · rw [hto.shared, orders_commitCompleted, get?_saveOrder, hp.1.tradeNo]
          split
          next heq =>
            obtain ⟨row, hrow, -⟩ := Option.map_eq_some_iff.1 (hp.1.committed h.providers)
            rw [heq, hrow]
            exact ⟨_, rfl, hp.2⟩
          next hne =>
            rw [hto.yielded, if_neg (Ne.symm hne)] at hpos
            exact hS.success tradeNo hpos
    · rw [hphase] at hp
      unfold CommitsInTime
      rw [hphase]
      dsimp only
      simp only [hfails, forall_const]
      rw [open_iff h hS]
      constructor
      · intro hsound
        by_contra hne
        have hpos := Nat.pos_of_ne_zero hne
        obtain ⟨row, hrow, hstatus⟩ := hsound.success order.tradeNo (by rw [hto.yielded]; exact hpos)
        rw [hto.shared, get?_saveOrder, if_pos rfl] at hrow
        obtain ⟨row', -, rfl⟩ := Option.map_eq_some_iff.1 hrow
        rw [hp.2] at hstatus
        cases hstatus
      · intro hzero
        refine ⟨fun tradeNo => ?_, fun tradeNo hpos => ?_, ?_, hinv.yields⟩
        · rw [hto.yielded]
          exact hS.once tradeNo
        · rw [hto.yielded] at hpos
          rw [hto.shared, get?_saveOrder, if_neg]
          · exact hS.success tradeNo hpos
          · rintro rfl
            omega
        · rw [hto.shared]
          exact hS.capped
    · refine iff_of_true ⟨fun tradeNo => ?_, fun tradeNo hpos => ?_, ?_, hinv.yields⟩ hcommits
      · rw [hto.yielded]
        exact hS.once tradeNo
      · rw [hto.yielded] at hpos
        rw [hto.shared]
        exact hS.success tradeNo hpos
      · rw [hto.shared]
        exact hS.capped

theorem others_sched (h : Inv s₀ S) (a : Act Call Io) : OthersChangeNothing S a (step cal plans S a) := by
  rintro k io p rfl hk ⟨hnamed, row, hrow, hother⟩
  have hp := h.each p (List.mem_of_getElem? hk)
  have hmatch {order : SubscriptionOrder} (hreads : Reads s₀ p.call order) : False := by
    have hprovider := hreads.committed h.providers
    rw [hrow] at hprovider
    exact hreads.named ⟨hnamed, (Option.some.inj hprovider) ▸ hother⟩
  rcases prog_cases cal plans S.shared p io with
    ⟨order, sub, group, topUp, isNew, hphase, -⟩ | ⟨order, hphase, -⟩ | ⟨hshared, -⟩
  · rw [hphase] at hp
    exact (hmatch hp.1).elim
  · rw [hphase] at hp
    exact (hmatch hp.1).elim
  · exact (shared_sched hk).trans hshared

/-- What is promised of the orders holds in a run just where every call that commits finds its order without success
and its user below the limit; a call that names another provider changes nothing in any run. -/
theorem orders_sound_iff (cal : Calendar) (plans : Table SubscriptionPlan.id) (s : Shared)
    (hpending : ∀ order ∈ s.orders, order.status = .pending) (hcapped : Capped plans s) (acts : List (Act Call Io)) :
    Run.Holds (step cal plans) (Sound plans s.store.subs.rows.length) (start s) acts ∧
        Run.Always (step cal plans) OthersChangeNothing (start s) acts ↔
      Run.Meets (step cal plans) (Each (CommitsInTime plans)) (start s) acts := by
  have hspawn {S : Procs Shared Proc} (hS : Sound plans s.store.subs.rows.length S) (call : Call) :
      Sound plans s.store.subs.rows.length (step cal plans S (.spawn call)) := by
    refine ⟨fun tradeNo => ?_, fun tradeNo hpos => ?_, hS.capped, ?_⟩
    · rw [yielded_spawn]
      exact hS.once tradeNo
    · rw [yielded_spawn] at hpos
      exact hS.success tradeNo hpos
    · rw [completions_spawn]
      exact hS.yields
  refine Run.holds_and_always_iff_meets (I := Inv s) (fun S a h => ?_) (fun S a h hS => ?_) (inv_start hpending)
    ⟨fun _ => Nat.zero_le 1, fun _ hpos => absurd hpos (lt_irrefl 0), hcapped, rfl⟩
  · cases a with
    | spawn call => exact h.spawn call
    | sched k io => exact h.sched k io
  · rw [and_iff_left (others_sched h a)]
    cases a with
    | spawn call => exact iff_of_true (hspawn hS call) trivial
    | sched k io => exact sound_sched h hS k io

end

/-! ## Two callbacks read before one commits -/

/-- A pending order of the user 1. -/
def pendingOrder (planId : Nat) (tradeNo : String) : SubscriptionOrder :=
  { userId := 1, planId, money := 10, tradeNo, paymentMethod := "alipay", paymentProvider := .epay }

/-- The user, and two pending orders for one plan. -/
def twoPending (planId : Nat) : Shared where
  orders := (Table.empty.insertNew (pendingOrder planId "SUB1")).insertNew (pendingOrder planId "SUB2")
  store := ⟨Table.empty.insertNew { id := 1, quota := 0 }, .empty, .empty⟩
  topUps := .empty

/-- A plan that a user may buy once, and one without a limit. -/
def oncePlan : Table SubscriptionPlan.id :=
  (Table.empty.insertNew { id := 1, maxPurchasePerUser := 1 }).insertNew { id := 2 }

/-- A callback of the provider. -/
def notify (tradeNo : String) : Call := .complete tradeNo "" .epay ""

/-- Two calls read their orders, and count; then each does the rest. -/
def interleaved (first second : String) : List (Act Call Io) :=
  [.spawn (notify first), .spawn (notify second), .sched 0 {}, .sched 1 {}, .sched 0 {}, .sched 1 {}, .sched 0 {},
    .sched 0 {}, .sched 0 {}, .sched 1 {}, .sched 1 {}, .sched 1 {}]

theorem orders_sound_iff_interleaved :
    Run.Holds (step fixedCalendar oncePlan) (Sound oncePlan 0) (start (twoPending 2)) (interleaved "SUB1" "SUB2") ∧
        Run.Always (step fixedCalendar oncePlan) OthersChangeNothing (start (twoPending 2))
          (interleaved "SUB1" "SUB2") ↔
      Run.Meets (step fixedCalendar oncePlan) (Each (CommitsInTime oncePlan)) (start (twoPending 2))
        (interleaved "SUB1" "SUB2") :=
  orders_sound_iff fixedCalendar oncePlan (twoPending 2) (by decide)
    (fun plan _ hmax userId => le_of_lt hmax) (interleaved "SUB1" "SUB2")

/-- Two orders of one user pass the limit of the plan, and one order that is notified twice yields two subscriptions. -/
theorem interleaved_unsound :
    ¬ Run.Holds (step fixedCalendar oncePlan) (Sound oncePlan 0) (start (twoPending 1)) (interleaved "SUB1" "SUB2") ∧
      ¬ Run.Holds (step fixedCalendar oncePlan) (Sound oncePlan 0) (start (twoPending 2))
        (interleaved "SUB1" "SUB1") := by
  constructor
  · intro h
    have hheld : held 1 1 (Run.run (step fixedCalendar oncePlan) (start (twoPending 1))
        (interleaved "SUB1" "SUB2")).shared = 2 := by decide +kernel
    have hle := h.last.capped { id := 1, maxPurchasePerUser := 1 } (by decide) (by decide) 1
    rw [hheld] at hle
    exact absurd hle (by decide)
  · intro h
    have htwice : yielded "SUB1" (Run.run (step fixedCalendar oncePlan) (start (twoPending 2))
        (interleaved "SUB1" "SUB1")) = 2 := by decide +kernel
    have honce := h.last.once "SUB1"
    rw [htwice] at honce
    exact absurd honce (by decide)

end SubscriptionOrders

end NewApi
